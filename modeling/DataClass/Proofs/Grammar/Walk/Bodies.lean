import DataClass.Proofs.Grammar.Tracking.Bodies
import DataClass.Proofs.Grammar.Walk.Mirror
namespace DataClass.Grammar

/-! Walking on behind a fault, and along the parts of a body. -/

namespace Recovery

/-- How many braces deep the tokens behind a token are that is passed over, unless they are where the next
part begins. -/
def depthBehind? (depth : Nat) : TokenKind → Option Nat
  | .punctuation .leftBrace => some (depth + 1)
  | .punctuation .rightBrace => if depth = 1 then none else some (depth - 1)
  | .punctuation .semicolon => if depth = 0 then none else some depth
  | _ => some depth

/-- Whether a token is not passed over. -/
def isStop (recovery : Recovery) (moved : Bool) (depth : Nat) (kind : TokenKind) : Bool :=
  kind == .endOfFile || depth == 0 && (recovery.isEnd kind || moved && recovery.isRestart kind)

variable {recovery : Recovery} {moved : Bool} {depth : Nat} {previous : Option Span} {token : Token}
  {rest : List Token}

/-- Right at a fault there is no reason to stop but the end of the body. -/
theorem isStop_at_start (recovery : Recovery) (kind : TokenKind) :
    recovery.isStop false 0 kind = recovery.isEnd kind := by
  by_cases ended : kind = .endOfFile
  · simp [isStop, isEnd, ended]
  · simp [isStop, ended]

theorem skip_of_stop (stop : recovery.isStop moved depth token.kind = true) :
    recovery.skip moved depth previous (token :: rest) = (previous, token :: rest) := by
  simp only [isStop, Bool.or_eq_true, beq_iff_eq] at stop
  rw [skip]
  split
  · rfl
  · next more => rw [if_pos (by simpa using stop.resolve_left more)]

theorem skip_of_past (past : recovery.isStop moved depth token.kind = false) :
    recovery.skip moved depth previous (token :: rest) =
      match depthBehind? depth token.kind with
      | none => (some token.span, rest)
      | some depth => recovery.skip true depth (some token.span) rest := by
  simp only [isStop, Bool.or_eq_false_iff, beq_eq_false_iff_ne] at past
  rw [skip, if_neg past.1, if_neg (by simpa using past.2)]
  generalize token.kind = kind
  split
  · rfl
  · unfold depthBehind?
    split <;> rfl
  · unfold depthBehind?
    split <;> rfl
  · next opens closes ends =>
      rw [depthBehind?] <;> assumption

end Recovery

namespace Walk

/-- Go on behind a fault that is at `start`, from `depth` braces inside of where it is. -/
def recoverFrom (recovery : Recovery) (start : Nat) : Nat → Nat → Walk Unit
  | 0, _ => endless
  | turns + 1, depth => do
      let kind ← currentKind
      if recovery.isStop (start < (← position)) depth kind then return ()
      else
        advance
        match Recovery.depthBehind? depth kind with
        | none => return ()
        | some depth => recoverFrom recovery start turns depth

def recover (recovery : Recovery) (turns : Nat) : Walk Unit := do
  recoverFrom recovery (← position) turns 0

variable {course : Course} {spot : course.Spot}

/-- Where the reader goes on behind a fault, the walk does so too. It goes on by a token at least, unless
there is a reason to stop right away. -/
theorem ends_recoverFrom (recovery : Recovery) {start : Nat} (depth : Nat) (spot : course.Spot)
    (begun : start ≤ spot.position) :
    ∃ next : course.Spot, Ends (recoverFrom recovery start · depth) spot () next ∧
      recovery.skip (start < spot.position) depth spot.cursor.previous spot.cursor.rest =
        (next.cursor.previous, next.cursor.rest) ∧
      next.reported = spot.reported ∧ spot.position ≤ next.position ∧
      (recovery.isStop (start < spot.position) depth spot.cursor.current.kind = false →
        spot.position < next.position) := by
  induction enough : spot.ahead generalizing spot depth with
  | zero => exact absurd spot.ahead_pos (Nat.not_lt_of_le (Nat.le_of_eq enough))
  | succ turns ih =>
      obtain ⟨token, rest, ahead⟩ : ∃ token rest, spot.cursor.rest = token :: rest :=
        List.exists_cons_of_ne_nil (by simp [Course.Spot.cursor])
      have here : spot.cursor.current = token := by rw [Cursor.current, ahead]; rfl
      rw [ahead, here]
      cases stop : recovery.isStop (start < spot.position) depth token.kind with
      | true =>
          refine ⟨spot, Ends.turn (goes_currentKind.ends.bind (goes_position.ends.bind ?_)), ?_, rfl,
            Nat.le_refl _, by simp⟩
          · simp only [here, if_pos stop]
            exact (goes_pure ()).ends
          · rw [Recovery.skip_of_stop stop, ahead]
      | false =>
          have more : token.kind ≠ .endOfFile := by
            simp only [Recovery.isStop, Bool.or_eq_false_iff, beq_eq_false_iff_ne] at stop
            exact stop.1
          have inside := spot.lt_of_more (here ▸ more)
          have goes : advance.Goes spot () (spot.forth inside) := goes_advance (here ▸ more)
          have passed : (spot.forth inside).cursor = ⟨some token.span, rest, spot.reported⟩ := by
            rw [spot.cursor_forth, Cursor.step, ahead]
            simp only [if_neg more]
            rfl
          have moved : start < (spot.forth inside).position := Nat.lt_succ_of_le begun
          rw [Recovery.skip_of_past stop]
          cases deeper : Recovery.depthBehind? depth token.kind with
          | none =>
              refine ⟨spot.forth inside, Ends.turn (goes_currentKind.ends.bind
                (goes_position.ends.bind ?_)), by rw [passed], rfl, Nat.le_succ _, fun _ => Nat.lt_succ_self _⟩
              simp only [here, stop, Bool.false_eq_true, if_false, deeper]
              exact goes.ends.bind (goes_pure ()).ends
          | some deep =>
              obtain ⟨next, ends, skips, quiet, onward, _⟩ := ih deep (spot.forth inside)
                (Nat.le_of_lt moved) (Nat.succ.inj ((spot.ahead_forth inside).symm.trans enough))
              refine ⟨next, Ends.turn (goes_currentKind.ends.bind (goes_position.ends.bind ?_)), ?_, quiet,
                Nat.le_of_lt onward, fun _ => onward⟩
              · simp only [here, stop, Bool.false_eq_true, if_false, deeper]
                exact goes.ends.bind ends
              · rw [← skips, passed]
                simp [moved]

theorem ends_recover (recovery : Recovery) (fault : Diagnostic) (spot : course.Spot) :
    ∃ told next : course.Spot, (report fault).Goes spot () told ∧ Ends (recover recovery) told () next ∧
      next.cursor = spot.cursor.resume recovery fault ∧ spot.position ≤ next.position ∧
      (recovery.isEnd spot.cursor.current.kind = false → spot.position < next.position) := by
  let told : course.Spot := ⟨spot.position, fault :: spot.reported, spot.position_le⟩
  have tells : (report fault).Goes spot () told := fun place holds =>
    ⟨_, rfl, holds.position_eq, congrArg (fault :: ·) holds.reported_eq, holds.visited_le, holds.looked_le⟩
  obtain ⟨next, ends, skips, quiet, onward, further⟩ :=
    ends_recoverFrom recovery 0 told (Nat.le_refl told.position)
  have unmoved : decide (told.position < told.position) = false := by simp
  rw [unmoved] at skips further
  refine ⟨told, next, tells, goes_position.ends.bind ends, ?_, onward, fun more => further ?_⟩
  · have skips : recovery.skip false 0 spot.cursor.previous spot.cursor.rest =
        (next.cursor.previous, next.cursor.rest) := skips
    rw [Cursor.resume, skips]
    exact congrArg (Cursor.mk _ _) quiet
  · exact (recovery.isStop_at_start _).trans more

end Walk

namespace Trial

open Walk (Ends)

variable {α : Type} {course : Course} {spot : course.Spot} {recovery : Recovery} {bound turns : Nat}
  {part : Nat → Trial α} {loop body : Nat → Trial (List α)} {part' : Reader α}
  {following : Nat → Except Diagnostic α → Walk (Except Diagnostic (List α))}

/-- A walk goes along the parts of a body: it stops at the end of the body, and a faulty part is reported
and left out. -/
structure AlongParts (recovery : Recovery) (part : Nat → Trial α) (loop : Nat → Trial (List α))
    (following : Nat → Except Diagnostic α → Walk (Except Diagnostic (List α))) : Prop where
  turn : ∀ turns, loop (turns + 1) = (Walk.currentKind >>= fun kind =>
    if recovery.isEnd kind = true then pure (.ok []) else (part turns).run >>= following turns : Walk _)
  keeps : ∀ turns first, following turns (.ok first) =
    (loop turns >>= fun later => pure (first :: later) : Trial _).run
  leaves : ∀ turns fault, following turns (.error fault) =
    Walk.report fault >>= fun _ => Walk.recover recovery turns >>= fun _ => (loop turns).run

/-- Going along the parts of a body never fails, and stops only at its end. -/
theorem exists_parts (along : AlongParts recovery part loop following)
    (inside : MirrorsUpTo course True bound part part') (enough : spot.ahead ≤ turns)
    (within : spot.ahead ≤ bound) :
    ∃ values, ∃ next : course.Spot, Ends loop spot (.ok values) next ∧
      Reader.parts recovery part' turns spot.cursor = .value values next.cursor ∧
      spot.position ≤ next.position ∧ recovery.isEnd next.cursor.current.kind = true := by
  induction turns generalizing spot with
  | zero => exact absurd spot.ahead_pos (Nat.not_lt_of_le enough)
  | succ turns ih =>
      by_cases ends : recovery.isEnd spot.cursor.current.kind = true
      · refine ⟨[], spot, Ends.turn ?_, Reader.parts_of_end ends, Nat.le_refl _, ends⟩
        simp only [along.turn _]
        refine Walk.goes_currentKind.ends.bind ?_
        simp only [if_pos ends]
        exact (Walk.goes_pure _).ends
      · have more : recovery.isEnd spot.cursor.current.kind = false := by simpa using ends
        obtain ⟨read, middle, comes, reads, onward, further⟩ := inside spot within
        have turn : ∀ {values next}, Ends (following · read) middle (.ok values) next →
            Ends loop spot (.ok values) next := fun later => by
          refine Ends.turn ?_
          simp only [along.turn _]
          refine Walk.goes_currentKind.ends.bind ?_
          simp only [if_neg ends]
          exact Ends.bind comes later
        cases read with
        | ok first =>
            have shorter := Course.Spot.ahead_lt (further trivial rfl)
            have enough : middle.ahead ≤ turns := by omega
            obtain ⟨later, last, comesOn, readsOn, onwardLater, ended⟩ := ih enough (by omega)
            refine ⟨first :: later, last, turn ?_, ?_, Nat.le_trans onward onwardLater, ended⟩
            · simp only [along.keeps]
              exact Ends.bind comesOn (Walk.goes_pure (Except.ok (first :: later))).ends
            · rw [Reader.parts_of_value more reads, Reader.bind_value readsOn]
              rfl
        | error fault =>
            obtain ⟨told, next, tells, recovers, resumes, forth, moved⟩ :=
              Walk.ends_recover recovery fault middle
            -- where the part took nothing, the body is not at its end, and so a token is passed over
            have further : spot.position < next.position := by
              rcases Nat.lt_or_eq_of_le onward with further | stays
              · exact Nat.lt_of_lt_of_le further forth
              · exact stays ▸ moved (Course.Spot.current_eq stays ▸ more)
            have shorter := Course.Spot.ahead_lt further
            have enough : next.ahead ≤ turns := by omega
            obtain ⟨later, last, comesOn, readsOn, onwardLater, ended⟩ := ih enough (by omega)
            refine ⟨later, last, turn ?_, ?_, by omega, ended⟩
            · simp only [along.leaves]
              exact tells.ends.bind (recovers.bind comesOn)
            · rw [Reader.parts_of_failure more reads, ← resumes]
              exact readsOn

/-- A walk along a body in braces. -/
theorem mirrors_braced {opening closing : String} (along : AlongParts recovery part loop following)
    (opens : ∀ turns, body (turns + 1) = do
      expect (.punctuation .leftBrace) opening
      let parts ← loop turns
      expect (.punctuation .rightBrace) closing
      return parts)
    (inside : MirrorsUpTo course True bound part part') (within : spot.ahead ≤ bound) :
    Mirrors True body (Reader.braced recovery opening closing part') spot := by
  refine Mirrors.turn ?_
  simp only [opens _]
  refine (mirrors_expect _ (by simp)).bind
    (fun _ next onward _ => mirrors_remaining fun turns enough => ?_) id
  have within := Nat.le_trans (Course.Spot.ahead_le onward) within
  obtain ⟨values, last, ends, reads, further, _⟩ := exists_parts along inside enough within
  have parts : Mirrors False loop (Reader.parts recovery part' turns) next :=
    ⟨.ok values, last, ends, reads, further, False.elim⟩
  exact parts.bind (fun _ _ _ _ => (mirrors_expect _ (by simp)).loosen.map) False.elim

end Trial

end DataClass.Grammar
