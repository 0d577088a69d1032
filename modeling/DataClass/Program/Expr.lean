import DataClass.Number.Binary64
import DataClass.Text.Span
import DataClass.Vocabulary.Operator
namespace DataClass

/-! Expressions.

Parentheses are part of the tree, so a program is written with the parentheses it was read with.
-/

inductive UnaryOp where
  | negate
  | not
deriving DecidableEq

namespace UnaryOp

def all : List UnaryOp := [.negate, .not]

def operator : UnaryOp → Operator
  | .negate => .minus
  | .not => .bang

end UnaryOp

inductive BinaryOp where
  | add | sub | mul | div | mod
  | eq | notEq | lt | ltEq | gt | gtEq
  | and | or
deriving DecidableEq

namespace BinaryOp

def all : List BinaryOp :=
  [.add, .sub, .mul, .div, .mod, .eq, .notEq, .lt, .ltEq, .gt, .gtEq, .and, .or]

def operator : BinaryOp → Operator
  | .add => .plus
  | .sub => .minus
  | .mul => .star
  | .div => .slash
  | .mod => .percent
  | .eq => .eqEq
  | .notEq => .notEq
  | .lt => .lt
  | .ltEq => .ltEq
  | .gt => .gt
  | .gtEq => .gtEq
  | .and => .andAnd
  | .or => .orOr

def precedence (op : BinaryOp) : Nat := op.operator.precedence

/-- The meaning of an operator between two operands. -/
def ofOperator? (operator : Operator) : Option BinaryOp :=
  all.find? (·.operator == operator)

end BinaryOp

inductive Expr where
  | int (span : Span) (value : Int)
  | float (span : Span) (value : Binary64)
  | string (span : Span) (value : String)
  | bool (span : Span) (value : Bool)
  | null (span : Span)
  | ident (span : Span) (name : String)
  | this (span : Span)
  | field (span : Span) (base : Expr) (name : String)
  | call (span : Span) (callee : Expr) (arguments : List Expr)
  | methodCall (span : Span) (receiver : Expr) (name : String) (arguments : List Expr)
  | unary (span : Span) (op : UnaryOp) (operand : Expr)
  | binary (span : Span) (left : Expr) (op : BinaryOp) (right : Expr)
  | paren (span : Span) (inner : Expr)

namespace Expr

def span : Expr → Span
  | .int span _ | .float span _ | .string span _ | .bool span _ | .null span
  | .ident span _ | .this span | .field span _ _ | .call span _ _
  | .methodCall span _ _ _ | .unary span _ _ | .binary span _ _ _ | .paren span _ => span

/-- A binary expression covers both of its operands. -/
def join (left : Expr) (op : BinaryOp) (right : Expr) : Expr :=
  .binary (left.span.merge right.span) left op right

/-- The name of a field read directly off `this`. -/
def thisField? : Expr → Option String
  | .field _ (.this _) name => some name
  | _ => none

/-- What may stand on the left of an assignment. -/
def isAssignable : Expr → Bool
  | .ident _ _ | .field _ _ _ => true
  | _ => false

mutual

/-- Change every range. -/
def mapSpans (move : Span → Span) : Expr → Expr
  | .int span value => .int (move span) value
  | .float span value => .float (move span) value
  | .string span value => .string (move span) value
  | .bool span value => .bool (move span) value
  | .null span => .null (move span)
  | .ident span name => .ident (move span) name
  | .this span => .this (move span)
  | .field span base name => .field (move span) (base.mapSpans move) name
  | .call span callee arguments =>
      .call (move span) (callee.mapSpans move) (mapSpansAll move arguments)
  | .methodCall span receiver name arguments =>
      .methodCall (move span) (receiver.mapSpans move) name (mapSpansAll move arguments)
  | .unary span op operand => .unary (move span) op (operand.mapSpans move)
  | .binary span left op right => .binary (move span) (left.mapSpans move) op (right.mapSpans move)
  | .paren span inner => .paren (move span) (inner.mapSpans move)

def mapSpansAll (move : Span → Span) : List Expr → List Expr
  | [] => []
  | expr :: rest => expr.mapSpans move :: mapSpansAll move rest

end

theorem mapSpansAll_eq_map (move : Span → Span) (exprs : List Expr) :
    mapSpansAll move exprs = exprs.map (mapSpans move) := by
  induction exprs with
  | nil => rfl
  | cons expr rest ih => simp [mapSpansAll, ih]

mutual

/-- Compare two expressions, their ranges by `near` and their numbers as numbers. -/
def agrees (near : Span → Span → Bool) : Expr → Expr → Bool
  | .int left value, .int right value' => near left right && value == value'
  | .float left value, .float right value' => near left right && value.same value'
  | .string left value, .string right value' => near left right && value == value'
  | .bool left value, .bool right value' => near left right && value == value'
  | .null left, .null right => near left right
  | .ident left name, .ident right name' => near left right && name == name'
  | .this left, .this right => near left right
  | .field left base name, .field right base' name' =>
      near left right && base.agrees near base' && name == name'
  | .call left callee arguments, .call right callee' arguments' =>
      near left right && callee.agrees near callee' && agreesAll near arguments arguments'
  | .methodCall left receiver name arguments, .methodCall right receiver' name' arguments' =>
      near left right && receiver.agrees near receiver' && name == name' &&
        agreesAll near arguments arguments'
  | .unary left op operand, .unary right op' operand' =>
      near left right && op == op' && operand.agrees near operand'
  | .binary left first op second, .binary right first' op' second' =>
      near left right && first.agrees near first' && op == op' && second.agrees near second'
  | .paren left inner, .paren right inner' => near left right && inner.agrees near inner'
  | _, _ => false

def agreesAll (near : Span → Span → Bool) : List Expr → List Expr → Bool
  | [], [] => true
  | left :: lefts, right :: rights => left.agrees near right && agreesAll near lefts rights
  | _, _ => false

end

end Expr

end DataClass
