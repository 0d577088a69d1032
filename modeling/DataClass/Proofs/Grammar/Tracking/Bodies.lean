import DataClass.Grammar.Recovery
import DataClass.Proofs.Grammar.Tracking.Lists
namespace DataClass.Grammar

namespace Recovery

variable (recovery : Recovery)

theorem skip_suffix (moved : Bool) (depth : Nat) (previous : Option Span) (tokens : List Token) :
    (recovery.skip moved depth previous tokens).2 <:+ tokens := by
  induction tokens generalizing moved depth previous with
  | nil => exact List.suffix_rfl
  | cons token rest ih =>
      have behind : rest <:+ token :: rest := List.suffix_cons ..
      unfold skip
      repeat' split
      all_goals first | exact List.suffix_rfl | exact behind | exact (ih ..).trans behind

theorem skip_placed (moved : Bool) (depth : Nat) {previous : Option Span} (tokens : List Token)
    (placed : previous.isSome) : (recovery.skip moved depth previous tokens).1.isSome := by
  induction tokens generalizing moved depth previous with
  | nil => exact placed
  | cons token rest ih =>
      unfold skip
      repeat' split
      all_goals first | exact placed | exact rfl | exact ih _ _ rfl

end Recovery

namespace Cursor

/-- Where reading goes on after a fault has been reported. -/
def resume (cursor : Cursor) (recovery : Recovery) (fault : Diagnostic) : Cursor :=
  { previous := (recovery.skip false 0 cursor.previous cursor.rest).1
    rest := (recovery.skip false 0 cursor.previous cursor.rest).2
    reported := fault :: cursor.reported }

theorem reachable_resume (cursor : Cursor) (recovery : Recovery) (fault : Diagnostic) :
    cursor.Reachable (cursor.resume recovery fault) :=
  ⟨recovery.skip_suffix .., recovery.skip_placed _ _ _, List.suffix_cons ..⟩

end Cursor

namespace Reader

/-! Bodies track themselves. Where nothing has been reported at the end of a body, all of its parts
have been read. -/

variable {α : Type} {old new : List Token} {takes closed : Prop} {cursor : Cursor}
  {bound turns other : Nat} {recovery : Recovery} {part part' : Reader α}

theorem parts_of_end (ends : recovery.isEnd cursor.current.kind = true) :
    parts recovery part (turns + 1) cursor = .value [] cursor := by
  change (if recovery.isEnd cursor.current.kind = true then pure [] else attempt part >>= _) cursor = _
  rw [if_pos ends]
  rfl

theorem parts_of_value {result : α} {next : Cursor}
    (more : recovery.isEnd cursor.current.kind = false) (read : part cursor = .value result next) :
    parts recovery part (turns + 1) cursor =
      (parts recovery part turns >>= fun later => pure (result :: later)) next := by
  have tried : attempt part cursor = .value (.ok result) next := by rw [attempt, read]
  change (if recovery.isEnd cursor.current.kind = true then pure [] else attempt part >>= _) cursor = _
  rw [more, if_neg Bool.false_ne_true]
  exact bind_value tried

theorem parts_of_failure {fault : Diagnostic} {next : Cursor}
    (more : recovery.isEnd cursor.current.kind = false) (read : part cursor = .failure fault next) :
    parts recovery part (turns + 1) cursor =
      parts recovery part turns (next.resume recovery fault) := by
  have tried : attempt part cursor = .value (.error fault) next := by rw [attempt, read]
  change (if recovery.isEnd cursor.current.kind = true then pure [] else attempt part >>= _) cursor = _
  rw [more, if_neg Bool.false_ne_true]
  exact bind_value tried

/-- Reading the parts of a body never fails. -/
theorem exists_parts (inside : TracksBelow old new takes closed bound part part')
    (within : cursor.rest.length < bound) :
    ∃ values next, parts recovery part turns cursor = .value values next ∧ cursor.Reachable next := by
  induction turns generalizing cursor with
  | zero => exact ⟨[], cursor, rfl, .refl _⟩
  | succ turns ih =>
      by_cases ends : recovery.isEnd cursor.current.kind = true
      · exact ⟨[], cursor, parts_of_end ends, .refl _⟩
      · have more : recovery.isEnd cursor.current.kind = false := by simpa using ends
        cases read : part cursor with
        | value result next =>
            have reach := ((inside cursor within).onward_value read).toReachable
            obtain ⟨later, last, further, behind⟩ := ih (Nat.lt_of_le_of_lt reach.length_le within)
            refine ⟨result :: later, last, ?_, reach.trans behind⟩
            rw [parts_of_value more read, bind_value further]
            rfl
        | failure fault next =>
            have reach := ((inside cursor within).onward_failure read).toReachable.trans
              (next.reachable_resume recovery fault)
            obtain ⟨later, last, further, behind⟩ := ih (Nat.lt_of_le_of_lt reach.length_le within)
            exact ⟨later, last, (parts_of_failure more read).trans further, reach.trans behind⟩

theorem reachable_of_parts {values : List α} {next : Cursor}
    (inside : TracksBelow old new takes closed bound part part')
    (within : cursor.rest.length < bound)
    (read : parts recovery part turns cursor = .value values next) : cursor.Reachable next := by
  obtain ⟨_, _, same, reach⟩ := exists_parts inside within
  cases read.symm.trans same
  exact reach

/-- Where a body is followed by more before `old` and nothing in it is reported, its parts are the
same in front of `new`. -/
theorem parts_front (inside : TracksBelow old new True False bound part part')
    (within : cursor.rest.length < bound) (enough : cursor.Enough old new turns other)
    (placed : cursor.previous.isSome) {front left : List Token} {values : List α}
    {last : Option Span} (reported : List Diagnostic) (ahead : cursor.rest = front ++ old)
    (read : parts recovery part turns cursor = .value values ⟨last, left ++ old, cursor.reported⟩)
    (some : left ≠ []) :
    parts recovery part' other ⟨cursor.previous, front ++ new, reported⟩ =
      .value values ⟨last, left ++ new, reported⟩ := by
  induction turns generalizing other cursor front values with
  | zero =>
      have reach := reachable_of_parts inside within read
      exact absurd (enough.pos ahead (ne_nil_of_reachable reach ahead rfl some)).1 (Nat.lt_irrefl 0)
  | succ turns ih =>
      have some' : front ≠ [] :=
        ne_nil_of_reachable (reachable_of_parts inside within read) ahead rfl some
      obtain ⟨other, rfl⟩ := Nat.exists_eq_add_one.mpr (enough.pos ahead some').2
      have same : Cursor.current ⟨cursor.previous, front ++ new, reported⟩ = cursor.current :=
        current_front new reported ahead some'
      by_cases ends : recovery.isEnd cursor.current.kind = true
      · rw [parts_of_end ends] at read
        obtain ⟨rfl, stay⟩ := Outcome.value.inj read
        obtain ⟨rfl, rfl⟩ := eq_of_stay ahead stay
        exact parts_of_end (by rw [same]; exact ends)
      · have more : recovery.isEnd cursor.current.kind = false := by simpa using ends
        have tracks := inside cursor within
        cases first : part cursor with
        | failure fault next =>
            -- the fault would have been reported
            rw [parts_of_failure more first] at read
            have sooner := (tracks.onward_failure first).toReachable
            have reach := sooner.trans (next.reachable_resume recovery fault)
            have behind : fault :: next.reported <:+ cursor.reported :=
              (reachable_of_parts inside (Nat.lt_of_le_of_lt reach.length_le within) read).reported
            exact absurd (Nat.le_trans behind.length_le sooner.reported.length_le) (Nat.not_succ_le_self _)
        | value result next =>
            rw [parts_of_value more first] at read
            obtain ⟨later, final, further, finish⟩ := exists_first read
            obtain ⟨rfl, rfl⟩ := Outcome.value.inj finish
            have shorter := tracks.shorter trivial result next first
            have sooner := (tracks.onward_value first).toReachable
            have within := Nat.lt_trans shorter within
            obtain ⟨place, between, rfl⟩ :=
              exists_between sooner (reachable_of_parts inside within further) rfl rfl
            have begun := tracks.value placed front _ result place reported ahead first (by simp [some])
            rw [parts_of_value (by rw [same]; exact more) begun,
              bind_value (ih within (enough.shorter shorter) (sooner.placed placed) rfl further)]
            rfl

theorem bind_assoc {β γ : Type} (reader : Reader β) (one : β → Reader γ) (two : γ → Reader α) :
    (reader >>= one) >>= two = reader >>= fun result => one result >>= two := by
  funext cursor
  simp only [bind]
  cases reader cursor <;> rfl

theorem expect_of_kind {kind : TokenKind} {expected : String} (here : cursor.current.kind = kind) :
    expect kind expected cursor = .value () cursor.step := by
  rw [expect, bind_value (by rw [accept, if_pos (by simp [here])])]
  rfl

/-- Entering a body and reading its parts. Faults of parts are reported behind the brace that has been
taken. -/
theorem tracks_opened (opening : String) (inside : TracksBelow old new True False bound part part')
    (within : cursor.rest.length ≤ bound) :
    Tracks old new True False
      (expect (.punctuation .leftBrace) opening >>= fun _ => remaining >>= parts recovery part)
      (expect (.punctuation .leftBrace) opening >>= fun _ => remaining >>= parts recovery part')
      cursor := by
  by_cases here : cursor.current.kind = .punctuation .leftBrace
  · have enters : ∀ (part : Reader α) (cursor : Cursor), cursor.current.kind = .punctuation .leftBrace →
        (expect (.punctuation .leftBrace) opening >>= fun _ => remaining >>= parts recovery part) cursor =
          parts recovery part cursor.step.rest.length cursor.step :=
      fun part cursor here => bind_value (expect_of_kind here)
    have more : cursor.current.kind ≠ .endOfFile := by simp [here]
    have shorter := Cursor.length_step more
    have below := Nat.lt_of_lt_of_le shorter within
    obtain ⟨values, next, read, behind⟩ := exists_parts inside below
    have goes := (enters part cursor here).trans read
    have taken : next.rest.length < cursor.rest.length := Nat.lt_of_le_of_lt behind.length_le shorter
    refine ⟨?_, ?_, ?_, by simp [goes]⟩
    · rw [goes]
      refine ⟨cursor.onward_step.toReachable.trans behind, fun front same plain => ?_⟩
      cases front with
      | nil => exact absurd (congrArg List.length same) (Nat.ne_of_gt taken)
      | cons token front =>
          rw [Cursor.current, same] at here
          exact absurd here (plain token List.mem_cons_self)
    · intro _ _ _ same
      cases goes.symm.trans same
      exact taken
    · intro placed front left found last reported ahead same some
      cases goes.symm.trans same
      have some : left ≠ [] := some
      obtain ⟨place, between, stop⟩ :=
        exists_between cursor.onward_step.toReachable behind rfl rfl
      obtain ⟨some', steps⟩ := step_front new reported more ahead stop
      have placed : place.isSome := by
        have placed := cursor.onward_step.placed placed
        rwa [stop] at placed
      rw [enters part' _ (by rw [current_front new reported ahead some']; exact here), steps]
      rw [stop] at read below
      exact parts_front inside below (Cursor.enough_remaining rfl) placed reported rfl read some
  · have stays : ∀ result next, expect (.punctuation .leftBrace) opening cursor ≠ .value result next := by
      intro result next
      rw [expect, bind_value (by rw [accept, if_neg (by simp [here])])]
      simp [failExpected]
    have start : Tracks old new True False (expect (.punctuation .leftBrace) opening)
        (expect (.punctuation .leftBrace) opening) cursor := tracks_expect opening (by simp)
    exact start.andThen (fun result next read => absurd read (stays result next))
      (Or.inl : True → True ∨ True) False.elim

theorem tracks_braced (opening closing : String)
    (inside : TracksBelow old new True False bound part part') (within : cursor.rest.length ≤ bound) :
    Tracks old new True closed (braced recovery opening closing part)
      (braced recovery opening closing part') cursor := by
  have opened : ∀ part : Reader α, braced recovery opening closing part =
      (expect (.punctuation .leftBrace) opening >>= fun _ => remaining >>= parts recovery part) >>=
        fun body => expect (.punctuation .rightBrace) closing >>= fun _ => pure body := by
    intro part
    rw [bind_assoc]
    simp only [bind_assoc]
    rfl
  rw [opened, opened]
  refine (tracks_opened opening inside within).before fun _ _ _ _ => ?_
  exact (tracks_expect closing (by simp)).map

end Reader

end DataClass.Grammar
