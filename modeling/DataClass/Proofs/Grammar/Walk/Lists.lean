import DataClass.Proofs.Grammar.Walk.Mirror
namespace DataClass.Grammar.Trial

/-! Walking along paths and lists. -/

variable {α : Type} {course : Course} {spot : course.Spot} {bound turns : Nat}
  {item : Nat → Trial α} {list items later : Nat → Trial (List α)} {item' : Reader α}

theorem mirrors_segments (enough : spot.ahead ≤ turns) :
    Mirrors False segments (Reader.segments turns) spot := by
  refine mirrors_loop (fun turns (_ : Unit) => segments turns) (fun turns _ => Reader.segments turns)
    (fun turns _ spot _ again => ?_) enough (Nat.le_refl _) ()
  refine mirrors_accept (by simp) (fun next further => ?_) (mirrors_pure [])
  refine mirrors_identifier.bind (fun segment last onward _ => ?_) False.elim
  exact (again () last (Nat.lt_of_lt_of_le further onward)).map

theorem mirrors_dottedPath : Mirrors True dottedPath Reader.dottedPath spot := by
  refine mirrors_identifier.bind (fun _ _ _ _ => mirrors_remaining fun _ enough => ?_) id
  exact (mirrors_segments enough).map

/-- A walk takes an item after each comma. -/
def AfterCommas (item : Nat → Trial α) (later : Nat → Trial (List α)) : Prop :=
  ∀ turns, later (turns + 1) = do
    if ← Walk.accept (.punctuation .comma) then
      let first ← item turns
      return first :: (← later turns)
    else return []

/-- A walk takes one item or more, with a comma between two of them. -/
def BetweenCommas (item : Nat → Trial α) (later items : Nat → Trial (List α)) : Prop :=
  ∀ turns, items (turns + 1) = do
    let first ← item turns
    return first :: (← later turns)

theorem mirrors_itemsAfterComma (loops : AfterCommas item later)
    (inside : MirrorsUpTo course True bound item item') (enough : spot.ahead ≤ turns)
    (within : spot.ahead ≤ bound) :
    Mirrors False later (Reader.itemsAfterComma item' turns) spot := by
  refine mirrors_loop (fun turns (_ : Unit) => later turns)
    (fun turns _ => Reader.itemsAfterComma item' turns) (fun turns _ spot within again => ?_) enough
    within ()
  simp only [loops _]
  refine mirrors_accept (by simp) (fun next further => ?_) (mirrors_pure [])
  have shorter := Course.Spot.ahead_lt further
  refine (inside next (Nat.le_trans (Nat.le_of_lt shorter) within)).bind (fun first last onward _ => ?_)
    False.elim
  exact (again () last (Nat.lt_of_lt_of_le further onward)).map

theorem mirrors_commaSeparated (loops : AfterCommas item later) (starts : BetweenCommas item later items)
    (inside : MirrorsUpTo course True bound item item') (within : spot.ahead ≤ bound) :
    Mirrors True items (Reader.commaSeparated item') spot := by
  refine Mirrors.turn ?_
  simp only [starts _]
  refine (inside spot within).bind (fun first next onward _ => mirrors_remaining fun _ enough => ?_) id
  have within := Nat.le_trans (Course.Spot.ahead_le onward) within
  exact (mirrors_itemsAfterComma loops inside enough within).map

theorem mirrors_parenthesized {opening closing : String}
    (opens : ∀ turns, list (turns + 1) = do
      expect (.punctuation .leftParen) opening
      if ← Walk.accept (.punctuation .rightParen) then return []
      else
        let items ← items turns
        expect (.punctuation .rightParen) closing
        return items)
    (loops : AfterCommas item later) (starts : BetweenCommas item later items)
    (inside : MirrorsUpTo course True bound item item') (within : spot.ahead ≤ bound + 1) :
    Mirrors True list (Reader.parenthesized opening closing item') spot := by
  refine Mirrors.turn ?_
  simp only [opens _]
  refine (mirrors_expect _ (by simp)).bind (fun _ next _ further => ?_) id
  have shorter := Course.Spot.ahead_lt (further trivial)
  refine mirrors_accept (by simp) (fun _ _ => mirrors_pure []) ?_
  refine (mirrors_commaSeparated loops starts inside (by omega)).bind (fun _ _ _ _ => ?_) False.elim
  exact (mirrors_expect _ (by simp)).loosen.map

end DataClass.Grammar.Trial
