import DataClass.Grammar.TypeRef
import DataClass.Proofs.Grammar.Tracking.Lists
namespace DataClass.Grammar.Reader

/-! Reading a type reference does not depend on what stands behind the token that ends it. -/

variable {old new : List Token} {cursor : Cursor} {bound turns other : Nat}
  {inner inner' : Reader TypeRef}

theorem tracks_arrayMarks (start : Nat) (enough : cursor.Enough old new turns other) (type : TypeRef) :
    Tracks old new False False (arrayMarks start turns type) (arrayMarks start other type) cursor := by
  refine tracks_loop (arrayMarks start) (arrayMarks start) id (fun type _ _ => ⟨_, tracks_pure type⟩)
    (fun turns other type cursor _ again => ?_) enough (Nat.lt_succ_self _) type
  refine tracks_accept (by simp) (fun next _ shorter => ?_) (tracks_pure type) id
  refine (tracks_expect _ (by simp)).bind (fun _ later _ further => ?_) False.elim
  exact tracks_spanFrom _ fun _ => again _ later (Nat.lt_trans (further trivial) shorter)

theorem tracks_typeArguments (inside : TracksBelow old new True False bound inner inner')
    (within : cursor.rest.length ≤ bound) :
    Tracks old new False False (typeArguments inner) (typeArguments inner') cursor := by
  refine tracks_accept (by simp) (fun next _ shorter => ?_) (tracks_pure []) id
  refine (tracks_commaSeparated inside (Nat.lt_of_lt_of_le shorter within)).bind (fun _ _ _ _ => ?_)
    False.elim
  exact (tracks_expect _ (by simp)).loosen.map

theorem tracks_typeRefWith (inside : TracksBelow old new True False cursor.rest.length inner inner') :
    Tracks old new True False (typeRefWith inner) (typeRefWith inner') cursor := by
  refine tracks_current ?_ False.elim
  split
  · next nothing =>
      exact (tracks_advance nothing (by simp)).map
  · refine tracks_dottedPath.bind (fun path next _ shorter => ?_) id
    refine (tracks_typeArguments inside (Nat.le_of_lt (shorter trivial))).bind (fun arguments _ _ _ => ?_)
      False.elim
    exact tracks_spanFrom _ fun _ => tracks_remaining fun _ enough => tracks_arrayMarks _ enough _

theorem tracks_typeRef : Tracks old new True False typeRef typeRef cursor :=
  tracks_remaining fun _ enough => tracks_layers rfl (fun _ => rfl) False.elim
    (fun _ _ _ inside => tracks_typeRefWith inside) enough

theorem tracks_typeAfterColon : Tracks old new False False typeAfterColon typeAfterColon cursor := by
  refine tracks_accept (by simp) (fun _ _ _ => ?_) (tracks_pure none) id
  exact tracks_typeRef.loosen.map

end DataClass.Grammar.Reader
