import DataClass.Proofs.Grammar.Segments
import DataClass.Proofs.Grammar.Shifting.Syntax
namespace DataClass

namespace Token

variable {last : Token} {tokens front : List Token}

/-- What is left of some tokens as long as the end is not stepped over. -/
theorem Ended.exists_left (ended : Ended tokens) (behind : tokens <:+ front ++ [last]) :
    ∃ run left, tokens = left ++ [last] ∧ front = run ++ left := by
  obtain ⟨run, split⟩ := behind
  obtain ⟨token, rest, some⟩ := ended.exists_cons
  have whole : (run ++ tokens.dropLast) ++ [tokens.getLast (by simp [some])] = front ++ [last] := by
    rw [List.append_assoc, List.dropLast_concat_getLast, split]
  obtain ⟨same, final⟩ := List.append_inj' whole rfl
  refine ⟨run, tokens.dropLast, ?_, same.symm⟩
  rw [← List.dropLast_concat_getLast (l := tokens) (by simp [some]), final]
  simp

end Token

namespace Grammar

/-! Programs as runs of tokens, one for each declaration. A declaration is read from its run alone, and
the declarations behind it are read as if nothing stood in front of them. -/

/-- The tokens are runs, each of which is read as a declaration. -/
inductive Declares : List Token → List Declaration → Prop where
  | nil : Declares [] []
  | cons {run rest : List Token} {decl : Declaration} {decls : List Declaration}
      (first : Accepts Reader.declaration run [] decl) (others : Declares rest decls) :
      Declares (run ++ rest) (decl :: decls)

/-- The run of each declaration. -/
theorem Declares.exists_run {tokens : List Token} {decls : List Declaration} {decl : Declaration}
    (declares : Declares tokens decls) (among : decl ∈ decls) :
    ∃ before run after, tokens = before ++ (run ++ after) ∧ Accepts Reader.declaration run [] decl := by
  induction declares with
  | nil => cases among
  | @cons run rest first decls accepted others ih =>
      rcases List.mem_cons.mp among with rfl | later
      · exact ⟨[], run, rest, rfl, accepted⟩
      · obtain ⟨before, other, after, rfl, found⟩ := ih later
        exact ⟨run ++ before, other, after, (List.append_assoc ..).symm, found⟩

theorem Recovery.isEnd_declarations (kind : TokenKind) :
    Recovery.declarations.isEnd kind = (kind == .endOfFile) := by
  cases kind with
  | punctuation mark => cases mark <;> rfl
  | _ => rfl

theorem Recovery.skip_behind (recovery : Recovery) (moved : Bool) (depth : Nat)
    (previous place : Option Span) (tokens : List Token) :
    (recovery.skip moved depth place tokens).2 = (recovery.skip moved depth previous tokens).2 := by
  cases tokens with
  | nil => rfl
  | cons token rest =>
      cases stop : recovery.isStop moved depth token.kind with
      | true => rw [skip_of_stop stop, skip_of_stop stop]
      | false => rw [skip_of_past stop, skip_of_past stop]

namespace Cursor

variable {cursor next : Cursor}

theorem resume_behind (cursor : Cursor) (recovery : Recovery) (fault : Diagnostic) (place : Option Span) :
    ∃ last, (cursor.behind place).resume recovery fault = (cursor.resume recovery fault).behind last := by
  refine ⟨(recovery.skip false 0 place cursor.rest).1, ?_⟩
  simp only [resume, behind, recovery.skip_behind false 0 cursor.previous place]

/-- Behind a fault in front of the end of a body at least one token is passed over. -/
theorem length_resume {recovery : Recovery} (fault : Diagnostic) (reach : cursor.Reachable next)
    (more : recovery.isEnd cursor.current.kind = false) :
    (next.resume recovery fault).rest.length < cursor.rest.length := by
  have further := (recovery.skip_suffix false 0 next.previous next.rest).length_le
  rcases Nat.lt_or_eq_of_le reach.length_le with shorter | same
  · exact Nat.lt_of_le_of_lt further shorter
  · -- the fault is at the first token, at which there is no reason to stop
    have stays : next.rest = cursor.rest := reach.behind.eq_of_length same
    cases ahead : cursor.rest with
    | nil =>
        rw [current, ahead] at more
        cases more
    | cons token rest =>
        rw [current, ahead] at more
        have past : recovery.isStop false 0 token.kind = false :=
          (recovery.isStop_at_start token.kind).trans more
        rw [resume, stays, ahead, Recovery.skip_of_past past]
        cases Recovery.depthBehind? 0 token.kind with
        | none => exact Nat.lt_succ_self _
        | some depth => exact Nat.lt_succ_of_le (recovery.skip_suffix true depth _ rest).length_le

end Cursor

namespace Reader

variable {cursor : Cursor} {front rest : List Token} {decls : List Declaration} {turns other : Nat}

theorem tracks_itself (cursor : Cursor) : Tracks [] [] True True declaration declaration cursor :=
  tracks_declaration

/-- A declaration that is read in front of the end of a text is read from a stretch of its own. -/
theorem exists_stretch {last : Token} {decl : Declaration} {middle : Cursor}
    (ahead : cursor.rest = front ++ [last]) (ended : last.kind = .endOfFile)
    (read : declaration cursor = .value decl middle) (silent : middle.reported = cursor.reported) :
    ∃ run left, front = run ++ left ∧ middle.rest = left ++ [last] ∧ Accepts declaration run [] decl := by
  have begins : Token.Ended cursor.rest := ⟨last, by rw [ahead, List.getLast?_concat]; rfl, ended⟩
  have stops : Token.Ended middle.rest := by
    rcases @shifts_declaration 0 cursor begins with ⟨_, _, stops, same, _⟩ | ⟨_, _, _, same, _⟩
    · cases read.symm.trans same
      exact stops
    · cases read.symm.trans same
  have reach := ((tracks_itself cursor).onward_value read).toReachable
  obtain ⟨run, left, between, rfl⟩ := stops.exists_left (ahead ▸ reach.behind)
  refine ⟨run, left, rfl, between, cursor.previous, left ++ [last], cursor.reported, middle.previous, ?_⟩
  have behind : middle = ⟨middle.previous, left ++ [last], cursor.reported⟩ := by
    rw [← between, ← silent]
  rw [List.nil_append, ← List.append_assoc, ← ahead, ← behind]
  exact read

/-- What has been read up to the end without a fault is one declaration after the other. -/
theorem declares_of_parts {last : Token} {next : Cursor} (ahead : cursor.rest = front ++ [last])
    (more : ∀ token ∈ front, token.kind ≠ .endOfFile) (ended : last.kind = .endOfFile)
    (enough : cursor.rest.length ≤ turns)
    (read : parts .declarations declaration turns cursor = .value decls next)
    (quiet : next.reported = cursor.reported) : Declares front decls := by
  induction turns generalizing cursor front decls with
  | zero => simp [ahead] at enough
  | succ turns ih =>
      cases front with
      | nil =>
          have ends : Recovery.declarations.isEnd cursor.current.kind = true := by
            rw [Cursor.current_eq ahead, ended]
            rfl
          rw [parts_of_end ends] at read
          cases read
          exact .nil
      | cons token front =>
          have here : Recovery.declarations.isEnd cursor.current.kind = false := by
            rw [Cursor.current_eq ahead, Recovery.isEnd_declarations]
            simp [more token List.mem_cons_self]
          have inside : ∀ next : Cursor, TracksBelow [] [] True True (next.rest.length + 1) declaration
              declaration := fun _ cursor _ => tracks_itself cursor
          cases first : declaration cursor with
          | failure fault middle =>
              -- the fault would have been reported
              rw [parts_of_failure here first] at read
              have sooner := ((tracks_itself cursor).onward_failure first).toReachable
              have later := (reachable_of_parts (inside _) (Nat.lt_succ_self _) read).reported
              rw [quiet] at later
              exact absurd (Nat.le_trans later.length_le sooner.reported.length_le) (Nat.not_succ_le_self _)
          | value decl middle =>
              rw [parts_of_value here first] at read
              obtain ⟨others, final, further, finish⟩ := exists_first read
              cases finish
              have sooner := ((tracks_itself cursor).onward_value first).toReachable
              have later := reachable_of_parts (inside _) (Nat.lt_succ_self _) further
              have silent := sooner.reported_eq later quiet
              have shorter := (tracks_itself cursor).shorter trivial decl middle first
              obtain ⟨run, left, split, between, accepted⟩ := exists_stretch ahead ended first silent
              rw [split] at more ⊢
              have plain : ∀ token ∈ left, token.kind ≠ .endOfFile :=
                fun token inside => more token (List.mem_append_right _ inside)
              exact .cons accepted (ih between plain (by omega) further (quiet.trans silent.symm))

/-- What has been read from a run alone is read wherever the run stands. -/
theorem exists_read_of_accepts {run : List Token} {decl : Declaration}
    (accepted : Accepts declaration run [] decl) (ahead : cursor.rest = run ++ rest) :
    ∃ stop, declaration cursor = .value decl ⟨stop, rest, cursor.reported⟩ := by
  have passes : Passes declaration cursor ([] ++ rest) [] (· = decl) :=
    passes_accepted accepted (fun _ _ _ => tracks_declaration) (fun _ _ => unplaced_declaration)
      (fun _ => trivial) ahead
  obtain ⟨_, stop, read, rfl⟩ := passes
  exact ⟨stop, read⟩

/-- Tokens that are declarations are read wherever they stand, and reading goes on behind them. -/
theorem parts_of_declares (declares : Declares front decls) (ahead : cursor.rest = front ++ rest)
    (enough : cursor.rest.length ≤ turns) :
    ∃ place other, rest.length ≤ other ∧ parts .declarations declaration turns cursor =
      (parts .declarations declaration other >>= fun later => pure (decls ++ later))
        ⟨place, rest, cursor.reported⟩ := by
  induction declares generalizing cursor turns with
  | nil =>
      obtain ⟨previous, tokens, reported⟩ := cursor
      obtain rfl : tokens = rest := ahead
      refine ⟨previous, turns, enough, ?_⟩
      simp only [List.nil_append, bind]
      cases parts .declarations declaration turns ⟨previous, tokens, reported⟩ <;> rfl
  | @cons run behind decl decls first others ih =>
      rw [List.append_assoc] at ahead
      obtain ⟨stop, read⟩ := exists_read_of_accepts first ahead
      have shorter := (tracks_itself cursor).shorter trivial _ _ read
      cases turns with
      | zero => exact absurd (Nat.lt_of_lt_of_le shorter enough) (Nat.not_lt_zero _)
      | succ turns =>
          obtain ⟨place, other, fits, goes⟩ :=
            @ih ⟨stop, behind ++ rest, cursor.reported⟩ turns rfl
              (Nat.le_of_lt_succ (Nat.lt_of_lt_of_le shorter enough))
          refine ⟨place, other, fits, ?_⟩
          rw [parts_of_value (isEnd_of_declaration read) read]
          have goes : parts .declarations declaration turns ⟨stop, behind ++ rest, cursor.reported⟩ = _ := goes
          simp only [bind] at goes ⊢
          rw [goes]
          cases parts .declarations declaration other ⟨place, rest, cursor.reported⟩ <;> rfl

/-- Neither the place of the token in front nor the number of turns, if there are enough, makes a
difference to the declarations that are read and to the faults that are reported. -/
theorem parts_elsewhere (ended : Token.Ended cursor.rest) (enough : cursor.rest.length ≤ turns)
    (enough' : cursor.rest.length ≤ other) (place : Option Span) :
    ∃ values next stop, parts .declarations declaration turns cursor = .value values next ∧
      parts .declarations declaration other (cursor.behind place) = .value values (next.behind stop) := by
  induction turns generalizing cursor other place with
  | zero =>
      obtain ⟨_, _, some⟩ := ended.exists_cons
      simp [some] at enough
  | succ turns ih =>
      cases other with
      | zero =>
          obtain ⟨_, _, some⟩ := ended.exists_cons
          simp [some] at enough'
      | succ other =>
          by_cases ends : Recovery.declarations.isEnd cursor.current.kind = true
          · have there : Recovery.declarations.isEnd (cursor.behind place).current.kind = true := ends
            exact ⟨[], cursor, place, parts_of_end ends, parts_of_end there⟩
          · have more : Recovery.declarations.isEnd cursor.current.kind = false := by simpa using ends
            have more' : Recovery.declarations.isEnd (cursor.behind place).current.kind = false := more
            rcases @shifts_declaration 0 cursor ended with
              ⟨decl, next, stops, read, _⟩ | ⟨fault, next, stops, read, _⟩
            · obtain ⟨last, there⟩ := (@unplaced_declaration cursor place).value read
              have shorter := (tracks_itself cursor).shorter trivial _ _ read
              obtain ⟨values, final, stop, goes, goes'⟩ := @ih next other stops (by omega) (by omega) last
              refine ⟨decl :: values, final, stop, ?_, ?_⟩
              · rw [parts_of_value more read, bind_value goes]
                rfl
              · rw [parts_of_value more' there, bind_value goes']
                rfl
            · obtain ⟨last, there⟩ := (@unplaced_declaration cursor place).failure read
              have reach := ((tracks_itself cursor).onward_failure read).toReachable
              have shorter := Cursor.length_resume fault reach more
              obtain ⟨again, same⟩ := next.resume_behind .declarations fault last
              obtain ⟨values, final, stop, goes, goes'⟩ := @ih
                (next.resume .declarations fault) other
                (Recovery.declarations.ended_skip false 0 next.previous stops) (by omega) (by omega) again
              refine ⟨values, final, stop, ?_, ?_⟩
              · rw [parts_of_failure more read, goes]
              · rw [parts_of_failure more' there, same, goes']

end Reader

end Grammar

end DataClass
