import DataClass.Proofs.Grammar.Laying.Syntax
import DataClass.Proofs.Grammar.Pointing.Basic
import DataClass.Proofs.Grammar.Soundness.Declaration
namespace DataClass.Grammar.Reader

open Token (Ordered SpansFrom)

/-! Where the faults of a program are. Nearly all of them are at the token that stands where something else
is expected. The others are at an operator that is not allowed behind another one, at what stands in front
of an equals sign, and at a tag that is not allowed. -/

variable {tokens : List Token}

/-! Types. -/

section TypeRef

variable {inner : Reader TypeRef}

theorem points_arrayMarks (start turns : Nat) (type : TypeRef) :
    Points tokens (arrayMarks start turns type) := by
  induction turns generalizing type with
  | zero => exact points_pure _
  | succ turns ih =>
      refine points_accept_bind ?_ (points_pure _)
      exact (points_expect _ _).bind fun _ => (points_spanFrom _).bind fun _ => ih _

theorem points_typeArguments (inside : Points tokens inner) : Points tokens (typeArguments inner) := by
  refine points_accept_bind ?_ (points_pure _)
  exact (points_commaSeparated inside).bind fun _ => (points_expect _ _).bind fun _ => points_pure _

theorem points_typeRefWith (inside : Points tokens inner) : Points tokens (typeRefWith inner) := by
  refine points_current.bind fun first => ?_
  split
  · exact points_advance.bind fun _ => points_pure _
  · refine points_dottedPath.bind fun path => (points_typeArguments inside).bind fun arguments => ?_
    exact (points_spanFrom _).bind fun _ => points_remaining.bind fun _ => points_arrayMarks _ _ _

theorem points_typeRefAt (depth : Nat) : Points tokens (typeRefAt depth) := by
  induction depth with
  | zero => exact points_failExpected _
  | succ depth ih => exact points_typeRefWith ih

theorem points_typeRef : Points tokens typeRef := points_remaining.bind fun _ => points_typeRefAt _

theorem points_typeAfterColon : Points tokens typeAfterColon :=
  points_accept_bind (points_typeRef.bind fun _ => points_pure _) (points_pure _)

end TypeRef

/-! Expressions. -/

section Expr

variable {operand inner : Reader Expr} {arguments : Reader (List Expr)}

theorem points_operatorsBehind (operands : Points tokens operand) (level turns : Nat) (left : Expr) :
    Points tokens (operatorsBehind operand level turns left) := by
  induction turns generalizing left with
  | zero => exact points_pure _
  | succ turns ih =>
      refine points_currentKind.bind fun kind => ?_
      split
      · exact points_pure _
      · refine points_advance.bind fun _ => operands.bind fun right => ?_
        split
        · refine fun low position => pointsAt_currentKind fun token found => ?_
          cases again : binaryAt? level token.kind with
          | none => exact points_pure _ low position
          | some other =>
              have more : token.kind ≠ .endOfFile := by
                intro ends
                rw [ends] at again
                cases again
              exact pointsAt_fail_behind (fun _ => rfl) found more
        · exact ih _

theorem points_binaryWith (operands : Points tokens operand) (levels : List Nat) :
    Points tokens (binaryWith operand levels) := by
  induction levels with
  | nil => exact operands
  | cons level tighter ih =>
      exact ih.bind fun left => points_remaining.bind fun turns => points_operatorsBehind ih level turns left

theorem points_signed (operands : Points tokens operand) (turns : Nat) :
    Points tokens (signed operand turns) := by
  induction turns with
  | zero => exact operands
  | succ turns ih =>
      refine points_current.bind fun sign => ?_
      split
      · exact operands
      · exact points_advance.bind fun _ => ih.bind fun _ => points_pure _

theorem points_accesses (given : Points tokens arguments) (turns : Nat) (base : Expr) :
    Points tokens (accesses arguments turns base) := by
  induction turns generalizing base with
  | zero => exact points_pure _
  | succ turns ih =>
      refine points_accept_bind ?_ ((points_isNext _).bind fun _ => ?_)
      · refine points_identifier.bind fun _ => (points_isNext _).bind fun _ => ?_
        split
        · exact given.bind fun _ => (points_spanFrom _).bind fun _ => ih _
        · exact (points_spanFrom _).bind fun _ => ih _
      · split
        · exact given.bind fun _ => (points_spanFrom _).bind fun _ => ih _
        · exact points_pure _

theorem points_operandWith (inside : Points tokens inner) : Points tokens (operandWith inner) := by
  refine points_current.bind fun first => ?_
  split
  · refine points_advance.bind fun _ => inside.bind fun _ => (points_expect _ _).bind fun _ => ?_
    exact (points_spanFrom _).bind fun _ => points_pure _
  · split
    · exact points_advance.bind fun _ => points_pure _
    · exact points_failExpected _

theorem points_expressionWith (inside : Points tokens inner) : Points tokens (expressionWith inner) := by
  refine points_binaryWith (points_remaining.bind fun _ => points_signed ?_ _) _
  exact (points_operandWith inside).bind fun _ => points_remaining.bind fun _ =>
    points_accesses (points_parenthesized _ _ inside) _ _

theorem points_expressionAt (depth : Nat) : Points tokens (expressionAt depth) := by
  induction depth with
  | zero => exact points_failExpected _
  | succ depth ih => exact points_expressionWith ih

theorem points_expression : Points tokens expression := points_remaining.bind fun _ => points_expressionAt _

theorem points_expressionAfterEquals : Points tokens expressionAfterEquals :=
  points_accept_bind (points_expression.bind fun _ => points_pure _) (points_pure _)

end Expr

/-! Statements. -/

section Stmt

variable {inner : Reader Stmt}

theorem points_blockWith (ordered : Ordered tokens) (inside : Points tokens inner) :
    Points tokens (blockWith inner) := points_braced ordered _ _ _ inside

theorem points_declareFrom (start : Nat) : Points tokens (declareFrom start) := by
  refine points_identifier.bind fun _ => points_typeAfterColon.bind fun _ => ?_
  refine points_expressionAfterEquals.bind fun _ => (points_expect _ _).bind fun _ => ?_
  exact (points_spanFrom _).bind fun _ => points_pure _

theorem points_giveBackFrom (start : Nat) : Points tokens (giveBackFrom start) := by
  refine points_accept_bind ((points_spanFrom _).bind fun _ => points_pure _) ?_
  refine points_expression.bind fun _ => (points_expect _ _).bind fun _ => ?_
  exact (points_spanFrom _).bind fun _ => points_pure _

theorem points_elseWith (ordered : Ordered tokens) (inside : Points tokens inner) :
    Points tokens (elseWith inner) := by
  refine points_accept_bind ((points_isNext _).bind fun _ => ?_) (points_pure _)
  split
  · exact inside.bind fun _ => points_pure _
  · exact (points_blockWith ordered inside).bind fun _ => points_pure _

theorem points_chooseFrom (ordered : Ordered tokens) (inside : Points tokens inner) (start : Nat) :
    Points tokens (chooseFrom inner start) := by
  refine points_expression.bind fun _ => (points_blockWith ordered inside).bind fun _ => ?_
  refine (points_elseWith ordered inside).bind fun _ => ?_
  exact (points_spanFrom _).bind fun _ => points_pure _

theorem points_repeatFrom (ordered : Ordered tokens) (inside : Points tokens inner) (start : Nat) :
    Points tokens (repeatFrom inner start) := by
  refine points_expression.bind fun _ => (points_blockWith ordered inside).bind fun _ => ?_
  exact (points_spanFrom _).bind fun _ => points_pure _

/-- What cannot be assigned stands where the statement begins, and nothing has been reported since then. -/
theorem points_evaluateFrom (ordered : Ordered tokens) (start : Nat) :
    Points tokens (evaluateFrom start) := by
  intro low position
  refine points_expression.bind_laid soundExpr_expression (lays_expression ordered position)
    fun expr middle reached onward laid => ?_
  refine pointsAt_accept_bind (fun after further => ?_) ?_
  · split
    · refine (points_expression.bind fun _ => (points_expect _ _).bind fun _ => ?_) low after
      exact (points_spanFrom _).bind fun _ => points_pure _
    · have spans := laid.spans
      rw [expr.span_extent] at spans
      exact pointsAt_fail ⟨position, middle, reached, Nat.le_trans onward further, spans⟩
  · refine ((points_expect _ _).bind fun _ => ?_) low middle
    exact (points_spanFrom _).bind fun _ => points_pure _

theorem points_statementWith (ordered : Ordered tokens) (inside : Points tokens inner) :
    Points tokens (statementWith inner) := by
  refine points_current.bind fun first => ?_
  dsimp only
  split
  · exact points_advance.bind fun _ => points_declareFrom _
  · exact points_advance.bind fun _ => points_giveBackFrom _
  · exact points_advance.bind fun _ => points_chooseFrom ordered inside _
  · exact points_advance.bind fun _ => points_repeatFrom ordered inside _
  · exact points_evaluateFrom ordered _

theorem points_statementAt (ordered : Ordered tokens) (depth : Nat) :
    Points tokens (statementAt depth) := by
  induction depth with
  | zero => exact points_failExpected _
  | succ depth ih => exact points_statementWith ordered ih

theorem points_block (ordered : Ordered tokens) : Points tokens block :=
  points_blockWith ordered (points_remaining.bind fun _ => points_statementAt ordered _)

end Stmt

/-! Members and declarations. -/

section Declaration

variable {inner : Reader Member}

theorem points_tags (turns : Nat) : Points tokens (tags turns) := by
  induction turns with
  | zero => exact points_pure _
  | succ turns ih =>
      refine points_current.bind fun first => ?_
      split
      · refine points_advance.bind fun _ => points_dottedPath.bind fun _ => ?_
        exact (points_spanFrom _).bind fun _ => ih.bind fun _ => points_pure _
      · exact points_pure _

theorem points_modifiers : Points tokens modifiers := by
  refine points_current.bind fun _ => points_remaining.bind fun _ => (points_tags _).bind fun _ => ?_
  exact points_accept_bind (points_pure _) ((points_accept _).bind fun _ => points_pure _)

theorem points_param : Points tokens param := by
  refine points_current.bind fun _ => points_identifier.bind fun _ => (points_expect _ _).bind fun _ => ?_
  exact points_typeRef.bind fun _ => points_pure _

theorem points_params : Points tokens params := points_parenthesized _ _ points_param

theorem points_method (ordered : Ordered tokens) (modifiers : Modifiers) :
    Points tokens (method modifiers) := by
  refine points_identifier.bind fun _ => points_params.bind fun _ => points_typeAfterColon.bind fun _ => ?_
  exact points_previousSpan.bind fun _ => (points_block ordered).bind fun _ => points_pure _

theorem points_constructor (ordered : Ordered tokens) (modifiers : Modifiers) :
    Points tokens (constructor modifiers) :=
  points_params.bind fun _ => (points_block ordered).bind fun _ => points_pure _

theorem points_field (modifiers : Modifiers) : Points tokens (field modifiers) := by
  refine points_identifier.bind fun _ => points_typeAfterColon.bind fun _ => ?_
  exact points_expressionAfterEquals.bind fun _ => (points_expect _ _).bind fun _ => points_pure _

theorem points_classWith (ordered : Ordered tokens) (inside : Points tokens inner) (modifiers : Modifiers) :
    Points tokens (classWith inner modifiers) :=
  points_identifier.bind fun _ => (points_braced ordered _ _ _ inside).bind fun _ => points_pure _

theorem points_behindWord {α β : Type} {read : Reader α} (start : Nat) (build : Span → α → β)
    (inside : Points tokens read) :
    Points tokens (advance >>= fun _ => read >>= fun value => spanFrom start >>= fun span =>
      pure (build span value)) :=
  points_advance.bind fun _ => inside.bind fun _ => (points_spanFrom _).bind fun _ => points_pure _

/-- A tag that is not allowed stands behind the place where the declaration begins, and nothing has been
reported since then. -/
theorem pointsAt_withoutTags {α : Type} {following : Unit → Reader α} {low position middle : Nat}
    (place : String) {modifiers : Modifiers} (reached : low ≤ position)
    (tagged : Extent.LaidAll tokens position middle (modifiers.tags.map Tag.extent))
    (later : PointsAt tokens low middle (following ())) :
    PointsAt tokens low middle (withoutTags place modifiers >>= following) := by
  unfold withoutTags
  split
  · exact later
  · next tag rest found =>
      rw [found, List.map_cons] at tagged
      obtain ⟨first, stop, onward, here, within⟩ := tagged.exists_laid _ List.mem_cons_self
      have spans : SpansFrom tokens low middle tag.span :=
        ⟨first, stop, Nat.le_trans reached onward, Nat.le_trans here.onward within, here.spans⟩
      have failed : PointsAt tokens low middle (fail (tagNotAllowed place tag.span) : Reader α) :=
        pointsAt_fail spans
      exact failed

theorem points_memberWith (ordered : Ordered tokens) (inside : Points tokens inner) :
    Points tokens (memberWith inner) := by
  intro low position
  refine points_modifiers.bind_laid (fun _ => consumes_modifiers) (lays_modifiers ordered)
    fun modifiers middle reached onward tagged => pointsAt_currentKind fun token found => ?_
  split
  · exact points_behindWord _ _ (points_method ordered modifiers) low middle
  · exact points_behindWord _ _ (points_constructor ordered modifiers) low middle
  · exact pointsAt_withoutTags _ reached tagged.1 (points_behindWord _ _ (points_block ordered) low middle)
  · exact points_behindWord _ _ (points_classWith ordered inside modifiers) low middle
  · refine ((points_field modifiers).bind fun _ => ?_) low middle
    exact (points_spanFrom _).bind fun _ => points_pure _
  · exact points_failExpected _ low middle

theorem points_memberAt (ordered : Ordered tokens) (depth : Nat) : Points tokens (memberAt depth) := by
  induction depth with
  | zero => exact points_failExpected _
  | succ depth ih => exact points_memberWith ordered ih

theorem points_member (ordered : Ordered tokens) : Points tokens member :=
  points_remaining.bind fun _ => points_memberAt ordered _

theorem points_declaration (ordered : Ordered tokens) : Points tokens declaration := by
  intro low position
  refine points_modifiers.bind_laid (fun _ => consumes_modifiers) (lays_modifiers ordered)
    fun modifiers middle reached onward tagged => pointsAt_currentKind fun token found => ?_
  split
  · refine pointsAt_withoutTags _ reached tagged.1 ((points_advance.bind fun _ => ?_) low middle)
    refine points_dottedPath.bind fun _ => (points_expect _ _).bind fun _ => ?_
    exact (points_spanFrom _).bind fun _ => points_pure _
  · exact points_behindWord _ _ (points_classWith ordered (points_member ordered) modifiers) low middle
  · exact points_behindWord _ _ (points_method ordered modifiers) low middle
  · exact points_failExpected _ low middle

theorem points_declarations (ordered : Ordered tokens) : Points tokens declarations :=
  points_remaining.bind fun _ => points_parts ordered _ (points_declaration ordered) _

end Declaration

end DataClass.Grammar.Reader
