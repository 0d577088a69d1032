import DataClass.Grammar.Declaration
import DataClass.Proofs.Grammar.Shifting.Basic
namespace DataClass

theorem TypeRef.span_mapSpans (move : Span → Span) (type : TypeRef) :
    (type.mapSpans move).span = move type.span := by
  cases type <;> rfl

theorem Expr.span_mapSpans (move : Span → Span) (expr : Expr) :
    (expr.mapSpans move).span = move expr.span := by
  cases expr <;> rfl

theorem Expr.join_shift (offset : Nat) (left : Expr) (op : BinaryOp) (right : Expr) :
    (left.mapSpans (Span.shift offset)).join op (right.mapSpans (Span.shift offset)) =
      (left.join op right).mapSpans (Span.shift offset) := by
  rw [join, join, mapSpans, span_mapSpans, span_mapSpans, Span.shift_merge]

namespace Grammar.Reader

/-! What is read of a text that has more in front is what is read without it, with all ranges shifted. -/

variable {offset : Nat}

/-! Types. -/

section TypeRef

variable {inner : Reader TypeRef}

theorem shifts_arrayMarks (start turns : Nat) (type : TypeRef) :
    Shifts offset (TypeRef.mapSpans (Span.shift offset)) (arrayMarks start turns type)
      (arrayMarks (start + offset) turns (type.mapSpans (Span.shift offset))) := by
  induction turns generalizing type with
  | zero => exact shifts_pure rfl
  | succ turns ih =>
      refine (shifts_accept _).andThen fun _ => shifts_ite ?_ (shifts_pure rfl)
      exact (shifts_expect _ _).andThen fun _ => (shifts_spanFrom rfl).bind fun span => ih (.array span type)

theorem shifts_typeArguments (inside : Shifts offset (TypeRef.mapSpans (Span.shift offset)) inner inner) :
    Shifts offset (List.map (TypeRef.mapSpans (Span.shift offset))) (typeArguments inner)
      (typeArguments inner) := by
  refine (shifts_accept _).andThen fun _ => shifts_ite ?_ (shifts_pure rfl)
  exact (shifts_commaSeparated inside).bind fun _ => (shifts_expect _ _).map fun _ => rfl

theorem shifts_typeRefWith (inside : Shifts offset (TypeRef.mapSpans (Span.shift offset)) inner inner) :
    Shifts offset (TypeRef.mapSpans (Span.shift offset)) (typeRefWith inner) (typeRefWith inner) := by
  refine shifts_current.bind fun first => ?_
  refine shifts_ite (shifts_advance.map fun _ => rfl) ?_
  refine shifts_dottedPath.andThen fun path => (shifts_typeArguments inside).bind fun arguments => ?_
  refine (shifts_spanFrom rfl).bind fun span => shifts_remaining.andThen fun turns => ?_
  have named := @shifts_arrayMarks offset first.span.start turns (.named span path arguments)
  rwa [TypeRef.mapSpans, TypeRef.mapSpansAll_eq_map] at named

theorem shifts_typeRefAt (depth : Nat) :
    Shifts offset (TypeRef.mapSpans (Span.shift offset)) (typeRefAt depth) (typeRefAt depth) := by
  induction depth with
  | zero => exact shifts_failExpected _
  | succ depth ih => exact shifts_typeRefWith ih

theorem shifts_typeRef : Shifts offset (TypeRef.mapSpans (Span.shift offset)) typeRef typeRef :=
  shifts_remaining.andThen fun _ => shifts_typeRefAt _

theorem shifts_typeAfterColon :
    Shifts offset (Option.map (TypeRef.mapSpans (Span.shift offset))) typeAfterColon typeAfterColon :=
  (shifts_accept _).andThen fun _ => shifts_ite (shifts_typeRef.map fun _ => rfl) (shifts_pure rfl)

end TypeRef

/-! Expressions. -/

section Expr

variable {operand inner : Reader Expr} {arguments : Reader (List Expr)}

theorem shifts_operatorsBehind (operands : Shifts offset (Expr.mapSpans (Span.shift offset)) operand operand)
    (level turns : Nat) (left : Expr) :
    Shifts offset (Expr.mapSpans (Span.shift offset)) (operatorsBehind operand level turns left)
      (operatorsBehind operand level turns (left.mapSpans (Span.shift offset))) := by
  induction turns generalizing left with
  | zero => exact shifts_pure rfl
  | succ turns ih =>
      refine shifts_currentKind.andThen fun kind => ?_
      cases binaryAt? level kind with
      | none => exact shifts_pure rfl
      | some op =>
          refine shifts_advance.andThen fun _ => operands.bind fun right => ?_
          rw [Expr.join_shift]
          refine shifts_ite (shifts_currentKind.andThen fun next => ?_) (ih _)
          cases binaryAt? level next with
          | none => exact shifts_pure rfl
          | some other =>
              exact shifts_advance.andThen fun _ => shifts_previousSpan.bind fun _ => shifts_fail rfl

theorem shifts_binaryWith (operands : Shifts offset (Expr.mapSpans (Span.shift offset)) operand operand)
    (levels : List Nat) :
    Shifts offset (Expr.mapSpans (Span.shift offset)) (binaryWith operand levels)
      (binaryWith operand levels) := by
  induction levels with
  | nil => exact operands
  | cons level tighter ih =>
      exact ih.bind fun left => shifts_remaining.andThen fun turns =>
        shifts_operatorsBehind ih level turns left

theorem shifts_signed (operands : Shifts offset (Expr.mapSpans (Span.shift offset)) operand operand)
    (turns : Nat) :
    Shifts offset (Expr.mapSpans (Span.shift offset)) (signed operand turns) (signed operand turns) := by
  induction turns with
  | zero => exact operands
  | succ turns ih =>
      refine shifts_current.bind fun sign => ?_
      dsimp only [Token.shift]
      cases unary? sign.kind with
      | none => exact operands
      | some op =>
          refine shifts_advance.andThen fun _ => ih.map fun inner => ?_
          rw [Expr.mapSpans, Expr.span_mapSpans]
          rfl

theorem shifts_accesses
    (given : Shifts offset (List.map (Expr.mapSpans (Span.shift offset))) arguments arguments)
    (turns : Nat) (base : Expr) :
    Shifts offset (Expr.mapSpans (Span.shift offset)) (accesses arguments turns base)
      (accesses arguments turns (base.mapSpans (Span.shift offset))) := by
  induction turns generalizing base with
  | zero => exact shifts_pure rfl
  | succ turns ih =>
      have start : (base.mapSpans (Span.shift offset)).span.start = base.span.start + offset := by
        rw [Expr.span_mapSpans]
        rfl
      refine (shifts_accept _).andThen fun _ => shifts_ite ?_ ?_
      · refine shifts_identifier.andThen fun name => (shifts_isNext _).andThen fun _ => shifts_ite ?_ ?_
        · refine given.bind fun arguments => (shifts_spanFrom start).bind fun span => ?_
          have called := ih (.methodCall span base name arguments)
          rwa [Expr.mapSpans, Expr.mapSpansAll_eq_map] at called
        · exact (shifts_spanFrom start).bind fun span => ih (.field span base name)
      · refine (shifts_isNext _).andThen fun _ => shifts_ite ?_ (shifts_pure rfl)
        refine given.bind fun arguments => (shifts_spanFrom start).bind fun span => ?_
        have called := ih (.call span base arguments)
        rwa [Expr.mapSpans, Expr.mapSpansAll_eq_map] at called

theorem operand?_shift (token : Token) :
    operand? (token.shift offset) = (operand? token).map (Expr.mapSpans (Span.shift offset)) := by
  obtain ⟨kind, span⟩ := token
  cases kind with
  | keyword word => cases word <;> rfl
  | _ => rfl

theorem shifts_operandWith (inside : Shifts offset (Expr.mapSpans (Span.shift offset)) inner inner) :
    Shifts offset (Expr.mapSpans (Span.shift offset)) (operandWith inner) (operandWith inner) := by
  refine shifts_current.bind fun first => shifts_ite ?_ ?_
  · refine shifts_advance.andThen fun _ => inside.bind fun expr => (shifts_expect _ _).andThen fun _ => ?_
    exact (shifts_spanFrom rfl).map fun _ => rfl
  · rw [operand?_shift]
    cases operand? first with
    | none => exact shifts_failExpected _
    | some expr => exact shifts_advance.map fun _ => rfl

theorem shifts_expressionWith (inside : Shifts offset (Expr.mapSpans (Span.shift offset)) inner inner) :
    Shifts offset (Expr.mapSpans (Span.shift offset)) (expressionWith inner) (expressionWith inner) := by
  have accessed : Shifts offset (Expr.mapSpans (Span.shift offset)) (accessedWith inner)
      (accessedWith inner) :=
    (shifts_operandWith inside).bind fun base => shifts_remaining.andThen fun turns =>
      shifts_accesses (shifts_parenthesized _ _ inside) turns base
  exact shifts_binaryWith (shifts_remaining.andThen fun turns => shifts_signed accessed turns) _

theorem shifts_expressionAt (depth : Nat) :
    Shifts offset (Expr.mapSpans (Span.shift offset)) (expressionAt depth) (expressionAt depth) := by
  induction depth with
  | zero => exact shifts_failExpected _
  | succ depth ih => exact shifts_expressionWith ih

theorem shifts_expression :
    Shifts offset (Expr.mapSpans (Span.shift offset)) expression expression :=
  shifts_remaining.andThen fun _ => shifts_expressionAt _

theorem shifts_expressionAfterEquals :
    Shifts offset (Option.map (Expr.mapSpans (Span.shift offset))) expressionAfterEquals
      expressionAfterEquals :=
  (shifts_accept _).andThen fun _ => shifts_ite (shifts_expression.map fun _ => rfl) (shifts_pure rfl)

end Expr

/-! Statements. -/

section Stmt

variable {inner : Reader Stmt} (start : Nat)

theorem shifts_blockWith (inside : Shifts offset (Stmt.mapSpans (Span.shift offset)) inner inner) :
    Shifts offset (List.map (Stmt.mapSpans (Span.shift offset))) (blockWith inner) (blockWith inner) :=
  shifts_braced _ _ _ inside

theorem shifts_declareFrom :
    Shifts offset (Stmt.mapSpans (Span.shift offset)) (declareFrom start)
      (declareFrom (start + offset)) := by
  refine shifts_identifier.andThen fun name => shifts_typeAfterColon.bind fun type => ?_
  refine shifts_expressionAfterEquals.bind fun value => (shifts_expect _ _).andThen fun _ => ?_
  exact (shifts_spanFrom rfl).map fun _ => rfl

theorem shifts_giveBackFrom :
    Shifts offset (Stmt.mapSpans (Span.shift offset)) (giveBackFrom start)
      (giveBackFrom (start + offset)) := by
  refine (shifts_accept _).andThen fun _ => shifts_ite ((shifts_spanFrom rfl).map fun _ => rfl) ?_
  refine shifts_expression.bind fun value => (shifts_expect _ _).andThen fun _ => ?_
  exact (shifts_spanFrom rfl).map fun _ => rfl

theorem shifts_elseWith (inside : Shifts offset (Stmt.mapSpans (Span.shift offset)) inner inner) :
    Shifts offset (Option.map (List.map (Stmt.mapSpans (Span.shift offset)))) (elseWith inner)
      (elseWith inner) := by
  refine (shifts_accept _).andThen fun _ => shifts_ite ?_ (shifts_pure rfl)
  exact (shifts_isNext _).andThen fun _ =>
    shifts_ite (inside.map fun _ => rfl) ((shifts_blockWith inside).map fun _ => rfl)

theorem shifts_chooseFrom (inside : Shifts offset (Stmt.mapSpans (Span.shift offset)) inner inner) :
    Shifts offset (Stmt.mapSpans (Span.shift offset)) (chooseFrom inner start)
      (chooseFrom inner (start + offset)) := by
  refine shifts_expression.bind fun condition => (shifts_blockWith inside).bind fun thenBody => ?_
  refine (shifts_elseWith inside).bind fun elseBody => (shifts_spanFrom rfl).map fun span => ?_
  cases elseBody with
  | none => rw [Stmt.mapSpans, Stmt.mapSpansAll_eq_map]; rfl
  | some elseBody => rw [Stmt.mapSpans, Stmt.mapSpansAll_eq_map, Stmt.mapSpansAll_eq_map]; rfl

theorem shifts_repeatFrom (inside : Shifts offset (Stmt.mapSpans (Span.shift offset)) inner inner) :
    Shifts offset (Stmt.mapSpans (Span.shift offset)) (repeatFrom inner start)
      (repeatFrom inner (start + offset)) := by
  refine shifts_expression.bind fun condition => (shifts_blockWith inside).bind fun body => ?_
  refine (shifts_spanFrom rfl).map fun span => ?_
  rw [Stmt.mapSpans, Stmt.mapSpansAll_eq_map]

theorem shifts_evaluateFrom :
    Shifts offset (Stmt.mapSpans (Span.shift offset)) (evaluateFrom start)
      (evaluateFrom (start + offset)) := by
  refine shifts_expression.bind fun expr => (shifts_accept _).andThen fun _ => shifts_ite ?_ ?_
  · have same : (expr.mapSpans (Span.shift offset)).isAssignable = expr.isAssignable := by
      cases expr <;> rfl
    rw [same, Expr.span_mapSpans]
    refine shifts_ite ?_ (shifts_fail rfl)
    refine shifts_expression.bind fun value => (shifts_expect _ _).andThen fun _ => ?_
    exact (shifts_spanFrom rfl).map fun _ => rfl
  · exact (shifts_expect _ _).andThen fun _ => (shifts_spanFrom rfl).map fun _ => rfl

theorem shifts_statementWith (inside : Shifts offset (Stmt.mapSpans (Span.shift offset)) inner inner) :
    Shifts offset (Stmt.mapSpans (Span.shift offset)) (statementWith inner) (statementWith inner) := by
  refine shifts_current.bind fun first => ?_
  obtain ⟨kind, span⟩ := first
  dsimp only [Token.shift, Span.shift]
  split
  · exact shifts_advance.andThen fun _ => shifts_declareFrom _
  · exact shifts_advance.andThen fun _ => shifts_giveBackFrom _
  · exact shifts_advance.andThen fun _ => shifts_chooseFrom _ inside
  · exact shifts_advance.andThen fun _ => shifts_repeatFrom _ inside
  · exact shifts_evaluateFrom _

theorem shifts_statementAt (depth : Nat) :
    Shifts offset (Stmt.mapSpans (Span.shift offset)) (statementAt depth) (statementAt depth) := by
  induction depth with
  | zero => exact shifts_failExpected _
  | succ depth ih => exact shifts_statementWith ih

theorem shifts_block :
    Shifts offset (List.map (Stmt.mapSpans (Span.shift offset))) block block :=
  shifts_blockWith (shifts_remaining.andThen fun _ => shifts_statementAt _)

end Stmt

/-! Members and declarations. -/

section Declaration

variable {inner : Reader Member}

/-- What stands in front of a declaration, in a text that has `offset` more bytes in front. -/
def shiftModifiers (offset : Nat) (modifiers : Modifiers) : Modifiers where
  tags := modifiers.tags.map (·.mapSpans (Span.shift offset))
  isPublic := modifiers.isPublic
  start := modifiers.start + offset

theorem shifts_withoutTags (place : String) (modifiers : Modifiers) :
    Shifts offset id (withoutTags place modifiers) (withoutTags place (shiftModifiers offset modifiers)) := by
  obtain ⟨tags, isPublic, start⟩ := modifiers
  cases tags with
  | nil => exact shifts_pure rfl
  | cons tag tags => exact shifts_fail rfl

theorem shifts_tags (turns : Nat) :
    Shifts offset (List.map (Tag.mapSpans (Span.shift offset))) (tags turns) (tags turns) := by
  induction turns with
  | zero => exact shifts_pure rfl
  | succ turns ih =>
      refine shifts_current.bind fun first => shifts_ite ?_ (shifts_pure rfl)
      refine shifts_advance.andThen fun _ => shifts_dottedPath.andThen fun path => ?_
      exact (shifts_spanFrom rfl).bind fun span => ih.map fun _ => rfl

theorem shifts_modifiers : Shifts offset (shiftModifiers offset) modifiers modifiers := by
  refine shifts_current.bind fun first => shifts_remaining.andThen fun turns => ?_
  refine (shifts_tags turns).bind fun tags => (shifts_accept _).andThen fun _ => ?_
  exact shifts_ite (shifts_pure rfl) ((shifts_accept _).map fun _ => rfl)

theorem shifts_param : Shifts offset (Param.mapSpans (Span.shift offset)) param param := by
  refine shifts_current.bind fun first => shifts_identifier.andThen fun name => ?_
  refine (shifts_expect _ _).andThen fun _ => shifts_typeRef.map fun type => ?_
  rw [Param.mapSpans, Span.shift_merge, TypeRef.span_mapSpans]
  rfl

theorem shifts_params :
    Shifts offset (List.map (Param.mapSpans (Span.shift offset))) params params :=
  shifts_parenthesized _ _ shifts_param

theorem shifts_method (modifiers : Modifiers) :
    Shifts offset (Method.mapSpans (Span.shift offset)) (method modifiers)
      (method (shiftModifiers offset modifiers)) := by
  refine shifts_identifier.andThen fun name => shifts_params.bind fun params => ?_
  refine shifts_typeAfterColon.bind fun written => shifts_previousSpan.bind fun span => ?_
  refine shifts_block.map fun body => ?_
  cases written <;> rfl

theorem shifts_constructor (modifiers : Modifiers) :
    Shifts offset (Constructor.mapSpans (Span.shift offset)) (constructor modifiers)
      (constructor (shiftModifiers offset modifiers)) :=
  shifts_params.bind fun _ => shifts_block.map fun _ => rfl

theorem shifts_field (modifiers : Modifiers) :
    Shifts offset (Field.mapSpans (Span.shift offset)) (field modifiers)
      (field (shiftModifiers offset modifiers)) := by
  refine shifts_identifier.andThen fun name => shifts_typeAfterColon.bind fun type => ?_
  exact shifts_expressionAfterEquals.bind fun value => (shifts_expect _ _).map fun _ => rfl

theorem shifts_classWith (inside : Shifts offset (Member.mapSpans (Span.shift offset)) inner inner)
    (modifiers : Modifiers) :
    Shifts offset (Class.mapSpans (Span.shift offset)) (classWith inner modifiers)
      (classWith inner (shiftModifiers offset modifiers)) := by
  refine shifts_identifier.andThen fun name => (shifts_braced _ _ _ inside).map fun members => ?_
  rw [Class.mapSpans, Member.mapSpansAll_eq_map]
  rfl

theorem shifts_memberWith (inside : Shifts offset (Member.mapSpans (Span.shift offset)) inner inner) :
    Shifts offset (Member.mapSpans (Span.shift offset)) (memberWith inner) (memberWith inner) := by
  refine shifts_modifiers.bind fun modifiers => shifts_currentKind.andThen fun kind => ?_
  split
  · exact shifts_advance.andThen fun _ => (shifts_method modifiers).bind fun _ =>
      (shifts_spanFrom rfl).map fun _ => rfl
  · exact shifts_advance.andThen fun _ => (shifts_constructor modifiers).bind fun _ =>
      (shifts_spanFrom rfl).map fun _ => rfl
  · exact (shifts_withoutTags _ modifiers).andThen fun _ => shifts_advance.andThen fun _ =>
      shifts_block.bind fun _ => (shifts_spanFrom rfl).map fun _ => rfl
  · exact shifts_advance.andThen fun _ => (shifts_classWith inside modifiers).bind fun _ =>
      (shifts_spanFrom rfl).map fun _ => rfl
  · exact (shifts_field modifiers).bind fun _ => (shifts_spanFrom rfl).map fun _ => rfl
  · exact shifts_failExpected _

theorem shifts_memberAt (depth : Nat) :
    Shifts offset (Member.mapSpans (Span.shift offset)) (memberAt depth) (memberAt depth) := by
  induction depth with
  | zero => exact shifts_failExpected _
  | succ depth ih => exact shifts_memberWith ih

theorem shifts_declaration :
    Shifts offset (Declaration.mapSpans (Span.shift offset)) declaration declaration := by
  refine shifts_modifiers.bind fun modifiers => shifts_currentKind.andThen fun kind => ?_
  have member : Shifts offset (Member.mapSpans (Span.shift offset)) member member :=
    shifts_remaining.andThen fun _ => shifts_memberAt _
  split
  · exact (shifts_withoutTags _ modifiers).andThen fun _ => shifts_advance.andThen fun _ =>
      shifts_dottedPath.andThen fun _ => (shifts_expect _ _).andThen fun _ =>
        (shifts_spanFrom rfl).map fun _ => rfl
  · exact shifts_advance.andThen fun _ => (shifts_classWith member modifiers).bind fun _ =>
      (shifts_spanFrom rfl).map fun _ => rfl
  · exact shifts_advance.andThen fun _ => (shifts_method modifiers).bind fun _ =>
      (shifts_spanFrom rfl).map fun _ => rfl
  · exact shifts_failExpected _

end Declaration

end Grammar.Reader

end DataClass
