import DataClass.Grammar.Declaration
import DataClass.Proofs.Grammar.Tracking.Stmt
namespace DataClass.Grammar.Reader

/-! Reading a member or a declaration does not depend on what stands behind it. -/

variable {old new : List Token} {closed : Prop} {cursor : Cursor} {bound turns other : Nat}
  {inner inner' : Reader Member}

theorem tracks_withoutTags {α : Type} {takes : Prop} (place : String) (modifiers : Modifiers)
    {one two : Unit → Reader α}
    (later : modifiers.tags = [] → Tracks old new takes closed (one ()) (two ()) cursor) :
    Tracks old new takes closed (withoutTags place modifiers >>= one)
      (withoutTags place modifiers >>= two) cursor := by
  unfold withoutTags
  split
  · next none => exact later none
  · next tag _ _ => exact tracks_fail (tagNotAllowed place tag.span)

theorem tracks_tags (enough : cursor.Enough old new turns other) :
    Tracks old new False False (tags turns) (tags other) cursor := by
  refine tracks_loop (fun turns (_ : Unit) => tags turns) (fun other _ => tags other) id
    (fun _ _ _ => ⟨_, tracks_pure []⟩) (fun turns other _ cursor _ again => ?_) enough
    (Nat.lt_succ_self _) ()
  refine tracks_current ?_ id
  split
  · next sign =>
      refine (tracks_advance sign (by simp)).bind (fun _ next _ shorter => ?_) False.elim
      refine tracks_dottedPath.bind (fun path later onward further => ?_) False.elim
      refine tracks_spanFrom _ fun _ => ?_
      exact (again () later (Nat.lt_trans (further trivial) (shorter trivial))).map
  · exact tracks_pure []

theorem tracks_modifiers : Tracks old new False False modifiers modifiers cursor := by
  refine tracks_current (tracks_remaining fun _ enough => ?_) id
  refine (tracks_tags enough).bind (fun _ _ _ _ => ?_) id
  refine tracks_accept (by simp) (fun _ _ _ => tracks_pure _) ?_ id
  exact (tracks_acceptance (by simp)).map

theorem tracks_param : Tracks old new True False param param cursor := by
  refine tracks_current ?_ False.elim
  refine tracks_identifier.before fun _ _ _ _ => ?_
  refine (tracks_expect _ (by simp)).before fun _ _ _ _ => ?_
  exact tracks_typeRef.map

theorem tracks_params : Tracks old new True closed params params cursor :=
  tracks_parenthesized _ _ (fun _ _ => tracks_param) (Nat.le_refl _)

theorem tracks_method (modifiers : Modifiers) :
    Tracks old new True closed (method modifiers) (method modifiers) cursor := by
  refine tracks_identifier.before fun _ _ _ _ => ?_
  refine tracks_params.before fun _ _ _ _ => ?_
  refine tracks_typeAfterColon.before fun _ _ _ _ => tracks_previousSpan fun _ => ?_
  exact tracks_block.map

theorem tracks_constructor (modifiers : Modifiers) :
    Tracks old new True closed (constructor modifiers) (constructor modifiers) cursor := by
  refine tracks_params.before fun _ _ _ _ => ?_
  exact tracks_block.map

theorem tracks_field (modifiers : Modifiers) :
    Tracks old new True closed (field modifiers) (field modifiers) cursor := by
  refine tracks_identifier.before fun _ _ _ _ => ?_
  refine tracks_typeAfterColon.before fun _ _ _ _ => ?_
  refine tracks_expressionAfterEquals.before fun _ _ _ _ => ?_
  exact (tracks_expect _ (by simp)).map

theorem tracks_classWith (inside : TracksBelow old new True True bound inner inner')
    (within : cursor.rest.length ≤ bound) (modifiers : Modifiers) :
    Tracks old new True closed (classWith inner modifiers) (classWith inner' modifiers) cursor := by
  refine tracks_identifier.before fun _ _ onward _ => ?_
  exact (tracks_braced _ _ (fun cursor within => (inside cursor within).unseal)
    (Nat.le_trans onward.length_le within)).map

theorem tracks_memberWith (inside : TracksBelow old new True True cursor.rest.length inner inner') :
    Tracks old new True True (memberWith inner) (memberWith inner') cursor := by
  refine tracks_modifiers.before fun modifiers next onward _ => ?_
  refine tracks_currentKind ?_ fun _ => trivial
  split
  · next word =>
      refine (tracks_advance word (by simp)).before fun _ _ _ _ => ?_
      exact (tracks_method modifiers).placed
  · next word =>
      refine (tracks_advance word (by simp)).before fun _ _ _ _ => ?_
      exact (tracks_constructor modifiers).placed
  · next word =>
      refine tracks_withoutTags _ modifiers fun _ => ?_
      refine (tracks_advance word (by simp)).before fun _ _ _ _ => ?_
      exact tracks_block.placed
  · next word =>
      refine (tracks_advance word (by simp)).before fun _ _ further _ => ?_
      exact (tracks_classWith inside (onward.trans further).length_le modifiers).placed
  · exact (tracks_field modifiers).placed
  · exact tracks_failExpected _

theorem tracks_memberAt (enough : cursor.Enough old new turns other) :
    Tracks old new True True (memberAt (turns + 1)) (memberAt (other + 1)) cursor :=
  tracks_layers rfl (fun _ => rfl) (fun _ => trivial) (fun _ _ _ inside => tracks_memberWith inside)
    enough

theorem tracks_member : Tracks old new True True member member cursor :=
  tracks_remaining fun _ enough => tracks_memberAt enough

theorem tracks_declaration : Tracks old new True True declaration declaration cursor := by
  refine tracks_modifiers.before fun modifiers next _ _ => ?_
  refine tracks_currentKind ?_ fun _ => trivial
  split
  · next word =>
      refine tracks_withoutTags _ modifiers fun _ => ?_
      refine (tracks_advance word (by simp)).before fun _ _ _ _ => ?_
      refine tracks_dottedPath.before fun _ _ _ _ => ?_
      exact (tracks_expect _ (by simp)).placed
  · next word =>
      refine (tracks_advance word (by simp)).before fun _ _ _ _ => ?_
      exact (tracks_classWith (fun _ _ => tracks_member) (Nat.le_refl _) modifiers).placed
  · next word =>
      refine (tracks_advance word (by simp)).before fun _ _ _ _ => ?_
      exact (tracks_method modifiers).placed
  · exact tracks_failExpected _

end DataClass.Grammar.Reader
