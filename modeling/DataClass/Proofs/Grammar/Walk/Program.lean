import DataClass.Proofs.Grammar.Walk.Declaration
namespace DataClass

namespace Grammar

/-! A whole walk ends at the first end, with what the reader reads. -/

/-- Walk along a program, and give it back or all of its faults. -/
def Walk.program (turns : Nat) : Walk (Except (List Diagnostic) Program) := do
  match ← (Trial.declarations turns).run, ← reported with
  | .ok declarations, [] => return .ok ⟨declarations⟩
  | .ok _, faults => return .error faults.reverse
  | .error fault, faults => return .error (fault :: faults).reverse

/-- The index of the first token that marks the end. -/
def firstEnd (tokens : List Token) : Nat := tokens.findIdx fun token => token.kind == .endOfFile

theorem exists_cut {tokens : List Token} (ended : ∃ token ∈ tokens, token.kind = .endOfFile) :
    ∃ front last rest, tokens = front ++ last :: rest ∧
      (∀ token ∈ front, token.kind ≠ .endOfFile) ∧ last.kind = .endOfFile := by
  have found : (tokens.find? fun token => token.kind == .endOfFile).isSome := by
    simpa [List.find?_isSome] using ended
  obtain ⟨last, found⟩ := Option.isSome_iff_exists.mp found
  obtain ⟨ends, front, rest, cut, more⟩ := List.find?_eq_some_iff_append.mp found
  exact ⟨front, last, rest, cut, by simpa using more, by simpa using ends⟩

theorem firstEnd_append {front rest : List Token} {last : Token}
    (more : ∀ token ∈ front, token.kind ≠ .endOfFile) (ended : last.kind = .endOfFile) :
    firstEnd (front ++ last :: rest) = front.length := by
  have none : (front.findIdx fun token => token.kind == .endOfFile) = front.length :=
    List.findIdx_eq_length.mpr (by simpa using more)
  rw [firstEnd, List.findIdx_append, none, if_neg (Nat.lt_irrefl _)]
  simp [List.findIdx_cons, ended]

namespace Course

variable (course : Course)

def start : course.Spot := ⟨0, [], Nat.zero_le _⟩

theorem holds_start : course.start.Holds .start :=
  ⟨rfl, rfl, by simp [Place.start], by simp [Place.start]⟩

theorem cursor_start : course.start.cursor = .ofTokens (course.front ++ course.last :: course.read) := by
  simp [Spot.cursor, start, Cursor.ofTokens]

/-- Reading declarations never fails, and stops only at the first end. -/
theorem exists_declarations : ∃ declarations, ∃ next : course.Spot,
    Walk.Ends Trial.declarations course.start (.ok declarations) next ∧
      Reader.declarations (.ofTokens (course.front ++ course.last :: course.read)) =
        .value declarations next.cursor ∧
      next.position = course.front.length := by
  rw [← course.cursor_start]
  have along : Trial.AlongParts .declarations Trial.declaration Trial.declarations _ :=
    ⟨fun _ => rfl, fun _ _ => rfl, fun _ _ => rfl⟩
  obtain ⟨declarations, next, comes, reads, _, ends⟩ := Trial.exists_parts along
    (fun _ _ => Trial.mirrors_declaration) course.start.ahead_le_remaining (Nat.le_refl _)
  refine ⟨declarations, next, comes, reads, next.current_kind_eq_end.mp ?_⟩
  cases kind : next.cursor.current.kind with
  | endOfFile => rfl
  | punctuation punctuation =>
      rw [kind] at ends
      cases punctuation <;> cases ends
  | _ =>
      rw [kind] at ends
      cases ends

/-- What a walk gives back is what is read, whatever stands behind the first end for the reader. -/
theorem exists_program : ∃ next : course.Spot, next.position = course.front.length ∧
    Walk.Ends Walk.program course.start
      (Program.ofTokens (course.front ++ course.last :: course.read)) next := by
  obtain ⟨declarations, next, comes, reads, reached⟩ := course.exists_declarations
  refine ⟨next, reached, Walk.Ends.bind comes (Walk.goes_reported.ends.bind ?_)⟩
  rw [Program.ofTokens, reads]
  obtain ⟨position, reported, within⟩ := next
  cases reported <;> exact (Walk.goes_pure _).ends

end Course

end Grammar

open Grammar in
/-- Where tokens have an end, the walk along them ends: with enough turns it has a result. Every token it asks
for is there, neither its position nor a token it looks at is behind the first end, and what it gives back,
which is what is read, is what it gives back for the tokens up to the first end. -/
theorem Program.walk_ends (tokens : List Token) (ended : ∃ token ∈ tokens, token.kind = .endOfFile) :
    ∃ enough place, (∀ turns, enough ≤ turns →
        Walk.program turns tokens .start = some (.ok (ofTokens tokens, place))) ∧
      place.position = firstEnd tokens ∧ (∀ position ∈ place.visited, position ≤ firstEnd tokens) ∧
      (∀ index ∈ place.looked, index ≤ firstEnd tokens) ∧
      ofTokens tokens = ofTokens (tokens.take (firstEnd tokens + 1)) := by
  obtain ⟨front, last, walked, rfl, more, ended⟩ := exists_cut ended
  have first : firstEnd (front ++ last :: walked) = front.length := firstEnd_append more ended
  -- the same walk, with a reader that sees all tokens and with one that sees none behind the first end
  obtain ⟨next, reached, ends⟩ := (Course.mk front last walked walked more ended).exists_program
  obtain ⟨_, _, endsCut⟩ := (Course.mk front last walked [] more ended).exists_program
  obtain ⟨place, enough, walks, holds⟩ := ends .start (Course.holds_start _)
  obtain ⟨_, enoughCut, walksCut, _⟩ := endsCut .start (Course.holds_start _)
  have same : ofTokens (front ++ last :: walked) = ofTokens (front ++ [last]) := by
    have both := (walks (max enough enoughCut) (Nat.le_max_left ..)).symm.trans
      (walksCut (max enough enoughCut) (Nat.le_max_right ..))
    exact (Prod.mk.inj (Except.ok.inj (Option.some.inj both))).1
  rw [first]
  refine ⟨enough, place, walks, holds.position_eq.trans reached, holds.visited_le, holds.looked_le, ?_⟩
  rw [same, List.take_length_add_append]
  rfl

/-- A brace that closes nothing is reported; the class behind the end is not looked at. -/
theorem Program.walk_ends_before_class :
    let stray : Token := ⟨.punctuation .rightBrace, ⟨0, 1⟩⟩
    let tokens : List Token := [stray, ⟨.endOfFile, ⟨1, 1⟩⟩, ⟨.keyword .classWord, ⟨2, 7⟩⟩]
    let fault : Diagnostic :=
      .syntaxFault "Expected declaration ('class', 'fn' or 'import'), found '\x7d'" stray.span
    (∃ token ∈ tokens, token.kind = .endOfFile) ∧
      ∃ enough place, (∀ turns, enough ≤ turns →
          Grammar.Walk.program turns tokens .start = some (.ok (.error [fault], place))) ∧
        place.position = 1 ∧ (∀ position ∈ place.visited, position ≤ 1) ∧
        (∀ index ∈ place.looked, index ≤ 1) ∧ .error [fault] = ofTokens (tokens.take 2) := by
  intro stray tokens fault
  have ended : ∃ token ∈ tokens, token.kind = .endOfFile := by simp [tokens]
  have read : ofTokens tokens = .error [fault] := rfl
  have walk := Program.walk_ends tokens ended
  rw [read] at walk
  exact ⟨ended, walk⟩

end DataClass
