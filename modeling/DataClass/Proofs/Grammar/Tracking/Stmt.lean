import DataClass.Grammar.Stmt
import DataClass.Proofs.Grammar.Tracking.Bodies
import DataClass.Proofs.Grammar.Tracking.Expr
import DataClass.Proofs.Grammar.Tracking.TypeRef
namespace DataClass.Grammar.Reader

/-! Reading a statement does not depend on what stands behind it, but for an `else` behind an `if`. -/

/-- Tokens that do not go on with an `if` that could end in front of them. -/
def NoElse (tokens : List Token) : Prop :=
  tokens.head?.map Token.kind ≠ some (.keyword .elseWord)

variable {old new : List Token} {closed : Prop} {cursor : Cursor} {bound : Nat}
  {inner inner' : Reader Stmt}

theorem tracks_declareFrom (start : Nat) :
    Tracks old new True closed (declareFrom start) (declareFrom start) cursor := by
  refine tracks_identifier.before fun _ _ _ _ => ?_
  refine tracks_typeAfterColon.before fun _ _ _ _ => ?_
  refine tracks_expressionAfterEquals.before fun _ _ _ _ => ?_
  exact (tracks_expect _ (by simp)).placed

theorem tracks_giveBackFrom (start : Nat) :
    Tracks old new True closed (giveBackFrom start) (giveBackFrom start) cursor := by
  refine tracks_accept (by simp) (fun _ _ _ => tracks_spanFrom _ fun _ => tracks_pure _) ?_
    fun _ => trivial
  refine tracks_expression.before fun _ _ _ _ => ?_
  exact (tracks_expect _ (by simp)).placed

theorem tracks_evaluateFrom (start : Nat) :
    Tracks old new True closed (evaluateFrom start) (evaluateFrom start) cursor := by
  refine tracks_expression.before fun expr _ _ _ => ?_
  refine tracks_accept (by simp) (fun _ _ _ => ?_) ?_ fun _ => trivial
  · split
    · refine tracks_expression.before fun _ _ _ _ => ?_
      exact (tracks_expect _ (by simp)).placed
    · exact tracks_fail _
  · exact (tracks_expect _ (by simp)).placed

theorem tracks_blockWith (inside : TracksBelow old new True (NoElse new) bound inner inner')
    (within : cursor.rest.length ≤ bound) :
    Tracks old new True closed (blockWith inner) (blockWith inner') cursor :=
  tracks_braced _ _ (fun cursor within => (inside cursor within).unseal) within

theorem tracks_elseWith (inside : TracksBelow old new True (NoElse new) bound inner inner')
    (within : cursor.rest.length ≤ bound) :
    Tracks old new False (NoElse new) (elseWith inner) (elseWith inner') cursor := by
  refine tracks_accept_or (by simp) (fun next _ shorter => ?_) (tracks_pure none) .inl
  have within := Nat.lt_of_lt_of_le shorter within
  refine Tracks.loosen (tracks_isNext ?_ fun _ => trivial)
  split
  · exact (inside next within).map
  · exact (tracks_blockWith inside (Nat.le_of_lt within)).map

theorem tracks_chooseFrom (inside : TracksBelow old new True (NoElse new) bound inner inner')
    (within : cursor.rest.length ≤ bound) (start : Nat) :
    Tracks old new True (NoElse new) (chooseFrom inner start) (chooseFrom inner' start) cursor := by
  refine tracks_expression.before fun _ next _ shorter => ?_
  have within := Nat.le_trans (Nat.le_of_lt (shorter trivial)) within
  refine (tracks_blockWith inside within).bind (fun _ later onward _ => ?_) id
  exact (tracks_elseWith inside (Nat.le_trans onward.length_le within)).placed

theorem tracks_repeatFrom (inside : TracksBelow old new True (NoElse new) bound inner inner')
    (within : cursor.rest.length ≤ bound) (start : Nat) :
    Tracks old new True closed (repeatFrom inner start) (repeatFrom inner' start) cursor := by
  refine tracks_expression.before fun _ next _ shorter => ?_
  have within := Nat.le_trans (Nat.le_of_lt (shorter trivial)) within
  exact (tracks_blockWith inside within).placed

theorem tracks_statementWith
    (inside : TracksBelow old new True (NoElse new) cursor.rest.length inner inner') :
    Tracks old new True (NoElse new) (statementWith inner) (statementWith inner') cursor := by
  refine tracks_current ?_ fun _ => trivial
  dsimp only
  split
  · next word =>
      exact (tracks_advance word (by simp)).before fun _ _ _ _ => tracks_declareFrom _
  · next word =>
      exact (tracks_advance word (by simp)).before fun _ _ _ _ => tracks_giveBackFrom _
  · next word =>
      exact (tracks_advance word (by simp)).before fun _ _ onward _ =>
        tracks_chooseFrom inside onward.length_le _
  · next word =>
      exact (tracks_advance word (by simp)).before fun _ _ onward _ =>
        tracks_repeatFrom inside onward.length_le _
  · exact tracks_evaluateFrom _

theorem tracks_statementAt {turns other : Nat} (enough : cursor.Enough old new turns other) :
    Tracks old new True (NoElse new) (statementAt (turns + 1)) (statementAt (other + 1)) cursor :=
  tracks_layers rfl (fun _ => rfl) (fun _ => trivial) (fun _ _ _ inside => tracks_statementWith inside)
    enough

theorem tracks_block : Tracks old new True closed block block cursor :=
  tracks_blockWith (fun _ _ => tracks_remaining fun _ enough => tracks_statementAt enough)
    (Nat.le_refl _)

end DataClass.Grammar.Reader
