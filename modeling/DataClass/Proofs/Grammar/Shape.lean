import DataClass.Program.Basic
namespace DataClass

/-! The trees that can be read. The table of operators decides which expressions may stand beside
and under one another without parentheses; apart from that a path has a segment, an array has
elements, and only a variable or a field is assigned. -/

namespace TypeRef

inductive Shaped : TypeRef → Prop where
  | named (span : Span) {path : List String} {arguments : List TypeRef} (segments : path ≠ [])
      (inside : ∀ argument ∈ arguments, argument.Shaped) : Shaped (.named span path arguments)
  | array (span : Span) {element : TypeRef} (value : element.isVoid = false)
      (inside : element.Shaped) : Shaped (.array span element)
  | void (span : Span) : Shaped (.void span)

end TypeRef

namespace BinaryOp

theorem associativity_of_precedence {op other : BinaryOp}
    (level : op.precedence = other.precedence) :
    op.operator.associativity = other.operator.associativity := by
  cases op <;> cases other <;> first | rfl | exact absurd level (by decide)

theorem associativity_eq_left {op : BinaryOp} (groups : op.operator.associativity ≠ .none) :
    op.operator.associativity = .left := by
  cases op <;> first | rfl | exact absurd rfl groups

end BinaryOp

namespace Expr

/-- How tightly the operator on the outside of an expression binds: an operator between two operands
less than a sign, and a sign less than what is written behind an operand. -/
def tightness : Expr → Nat
  | .binary _ _ op _ => op.precedence
  | .unary _ _ _ => Operator.bang.precedence
  | _ => Operator.bang.precedence + 1

/-- Whether an expression may stand on the left of an operator without parentheses. -/
def FitsLeft (left : Expr) (op : BinaryOp) : Prop :=
  op.precedence < left.tightness ∨
    op.operator.associativity = .left ∧ left.tightness = op.precedence

/-- A name behind a point, and no call of it. -/
def isAccess : Expr → Bool
  | .field _ _ _ => true
  | _ => false

/-- Expressions that need no parentheses but the ones they have. -/
inductive Shaped : Expr → Prop where
  | int (span : Span) (value : Int) : Shaped (.int span value)
  | float (span : Span) (value : Binary64) : Shaped (.float span value)
  | string (span : Span) (value : String) : Shaped (.string span value)
  | bool (span : Span) (value : Bool) : Shaped (.bool span value)
  | null (span : Span) : Shaped (.null span)
  | ident (span : Span) (name : String) : Shaped (.ident span name)
  | this (span : Span) : Shaped (.this span)
  | field (span : Span) (name : String) {base : Expr}
      (tight : Operator.bang.precedence < base.tightness) (inside : base.Shaped) :
      Shaped (.field span base name)
  | call (span : Span) {callee : Expr} {arguments : List Expr}
      (tight : Operator.bang.precedence < callee.tightness) (called : callee.isAccess = false)
      (inside : callee.Shaped) (given : ∀ argument ∈ arguments, argument.Shaped) :
      Shaped (.call span callee arguments)
  | methodCall (span : Span) (name : String) {receiver : Expr} {arguments : List Expr}
      (tight : Operator.bang.precedence < receiver.tightness) (inside : receiver.Shaped)
      (given : ∀ argument ∈ arguments, argument.Shaped) :
      Shaped (.methodCall span receiver name arguments)
  | unary (span : Span) (op : UnaryOp) {operand : Expr}
      (tight : Operator.bang.precedence ≤ operand.tightness) (inside : operand.Shaped) :
      Shaped (.unary span op operand)
  | binary (span : Span) (op : BinaryOp) {left right : Expr} (fits : left.FitsLeft op)
      (tight : op.precedence < right.tightness) (first : left.Shaped) (second : right.Shaped) :
      Shaped (.binary span left op right)
  | paren (span : Span) {inner : Expr} (inside : inner.Shaped) : Shaped (.paren span inner)

end Expr

namespace Stmt

inductive Shaped : Stmt → Prop where
  | declare (span : Span) (name : String) {type : Option TypeRef} {value : Option Expr}
      (typed : ∀ found ∈ type, found.Shaped) (valued : ∀ found ∈ value, found.Shaped) :
      Shaped (.declare span name type value)
  | assign (span : Span) {target value : Expr} (place : target.isAssignable = true)
      (first : target.Shaped) (second : value.Shaped) : Shaped (.assign span target value)
  | giveBack (span : Span) {value : Option Expr} (valued : ∀ found ∈ value, found.Shaped) :
      Shaped (.giveBack span value)
  | choose (span : Span) {condition : Expr} {thenBody : List Stmt} {elseBody : Option (List Stmt)}
      (test : condition.Shaped) (yes : ∀ stmt ∈ thenBody, stmt.Shaped)
      (no : ∀ body, elseBody = some body → ∀ stmt ∈ body, stmt.Shaped) :
      Shaped (.choose span condition thenBody elseBody)
  | repeatWhile (span : Span) {condition : Expr} {body : List Stmt} (test : condition.Shaped)
      (inside : ∀ stmt ∈ body, stmt.Shaped) : Shaped (.repeatWhile span condition body)
  | evaluate (span : Span) {expr : Expr} (inside : expr.Shaped) : Shaped (.evaluate span expr)

end Stmt

namespace Tag

def Shaped (tag : Tag) : Prop := tag.path ≠ []

end Tag

namespace Param

def Shaped (param : Param) : Prop := param.type.Shaped

end Param

namespace Field

structure Shaped (field : Field) : Prop where
  tagged : ∀ tag ∈ field.tags, tag.Shaped
  typed : ∀ type ∈ field.type, type.Shaped
  valued : ∀ value ∈ field.default, value.Shaped

end Field

namespace Method

structure Shaped (method : Method) : Prop where
  tagged : ∀ tag ∈ method.tags, tag.Shaped
  given : ∀ param ∈ method.params, param.Shaped
  typed : method.returnType.Shaped
  inside : ∀ stmt ∈ method.body, stmt.Shaped

end Method

namespace Constructor

structure Shaped (constructor : Constructor) : Prop where
  tagged : ∀ tag ∈ constructor.tags, tag.Shaped
  given : ∀ param ∈ constructor.params, param.Shaped
  inside : ∀ stmt ∈ constructor.body, stmt.Shaped

end Constructor

namespace Member

inductive Shaped : Member → Prop where
  | field (span : Span) {decl : Field} (inside : decl.Shaped) : Shaped (.field span decl)
  | method (span : Span) {decl : Method} (inside : decl.Shaped) : Shaped (.method span decl)
  | constructor (span : Span) {decl : Constructor} (inside : decl.Shaped) :
      Shaped (.constructor span decl)
  | initializer (span : Span) {body : List Stmt} (inside : ∀ stmt ∈ body, stmt.Shaped) :
      Shaped (.initializer span body)
  | nested (span : Span) {decl : Class} (tagged : ∀ tag ∈ decl.tags, tag.Shaped)
      (inside : ∀ member ∈ decl.members, member.Shaped) : Shaped (.nested span decl)

end Member

namespace Class

structure Shaped (decl : Class) : Prop where
  tagged : ∀ tag ∈ decl.tags, tag.Shaped
  inside : ∀ member ∈ decl.members, member.Shaped

end Class

namespace Declaration

def Shaped : Declaration → Prop
  | .importPath _ path => path ≠ []
  | .type _ decl => decl.Shaped
  | .function _ decl => decl.Shaped

end Declaration

namespace Program

def Shaped (program : Program) : Prop :=
  ∀ declaration ∈ program.declarations, declaration.Shaped

end Program

end DataClass
