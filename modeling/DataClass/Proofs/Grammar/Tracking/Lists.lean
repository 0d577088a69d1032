import DataClass.Proofs.Grammar.Tracking.Basic
namespace DataClass.Grammar.Reader

/-! Paths, lists in parentheses and bodies in braces track themselves. -/

variable {α : Type} {old new : List Token} {takes closed : Prop} {cursor : Cursor}
  {bound turns other : Nat} {item item' : Reader α}

theorem tracks_segments (enough : cursor.Enough old new turns other) :
    Tracks old new False False (segments turns) (segments other) cursor := by
  refine tracks_loop (fun turns (_ : Unit) => segments turns) (fun other _ => segments other) id
    (fun _ _ _ => ⟨_, tracks_pure []⟩) (fun turns other _ cursor _ again => ?_) enough
    (Nat.lt_succ_self _) ()
  refine tracks_accept (by simp) (fun next _ shorter => ?_) (tracks_pure []) id
  refine tracks_identifier.bind (fun _ later _ further => ?_) False.elim
  exact (again () later (Nat.lt_trans (further trivial) shorter)).map

theorem tracks_dottedPath : Tracks old new True False dottedPath dottedPath cursor := by
  refine tracks_identifier.bind (fun _ _ _ _ => tracks_remaining fun _ enough => ?_) id
  exact (tracks_segments enough).map

theorem tracks_itemsAfterComma (items : TracksBelow old new True False bound item item')
    (enough : cursor.Enough old new turns other) (within : cursor.rest.length < bound) :
    Tracks old new False False (itemsAfterComma item turns) (itemsAfterComma item' other) cursor := by
  refine tracks_loop (fun turns (_ : Unit) => itemsAfterComma item turns)
    (fun other _ => itemsAfterComma item' other) id (fun _ _ _ => ⟨_, tracks_pure []⟩)
    (fun turns other _ cursor within again => ?_) enough within ()
  refine tracks_accept (by simp) (fun next _ shorter => ?_) (tracks_pure []) id
  refine (items next (Nat.lt_trans shorter within)).bind (fun _ later _ further => ?_) False.elim
  exact (again () later (Nat.lt_trans (further trivial) shorter)).map

theorem tracks_commaSeparated (items : TracksBelow old new True False bound item item')
    (within : cursor.rest.length < bound) :
    Tracks old new True False (commaSeparated item) (commaSeparated item') cursor := by
  refine (items cursor within).bind (fun _ next _ shorter => tracks_remaining fun _ enough => ?_) id
  have within := Nat.lt_trans (shorter trivial) within
  exact (tracks_itemsAfterComma items enough within).map

theorem tracks_parenthesized (opening closing : String)
    (items : TracksBelow old new True False bound item item') (within : cursor.rest.length ≤ bound) :
    Tracks old new True closed (parenthesized opening closing item)
      (parenthesized opening closing item') cursor := by
  refine (tracks_expect opening (by simp)).bind (fun _ next _ shorter => ?_) id
  have within : next.rest.length < bound := Nat.lt_of_lt_of_le (shorter trivial) within
  refine Tracks.loosen (tracks_accept (by simp) (fun _ _ _ => tracks_pure []) ?_ fun _ => trivial)
  refine (tracks_commaSeparated items within).before fun _ _ _ _ => ?_
  exact (tracks_expect closing (by simp)).map

end DataClass.Grammar.Reader
