import DataClass.Vocabulary.Release
namespace DataClass

/-! Operators, how tightly they bind, and how a row of them is grouped. -/

inductive Operator where
  | orOr | andAnd
  | eqEq | notEq | lt | ltEq | gt | gtEq
  | plus | minus
  | star | slash | percent
  | bang
  | eq
deriving DecidableEq

inductive Associativity where
  | left
  | right
  | none
deriving DecidableEq

def Associativity.name : Associativity → String
  | .left => "Left"
  | .right => "Right"
  | .none => "None"

/-- Where an operator stands: between two operands, before one, or either. -/
inductive Fixity where
  | between
  | before
  | either
deriving DecidableEq

def Fixity.name : Fixity → String
  | .between => "Infix"
  | .before => "Prefix"
  | .either => "Both"

namespace Operator

/-- Every operator, in the order of the reference table. -/
def all : List Operator :=
  [.orOr, .andAnd, .eqEq, .notEq, .lt, .ltEq, .gt, .gtEq, .plus, .minus,
   .star, .slash, .percent, .bang, .eq]

/-- The name under which the reference table lists the operator. -/
def name : Operator → String
  | .orOr => "OrOr"
  | .andAnd => "AndAnd"
  | .eqEq => "EqEq"
  | .notEq => "NotEq"
  | .lt => "Lt"
  | .ltEq => "LtEq"
  | .gt => "Gt"
  | .gtEq => "GtEq"
  | .plus => "Plus"
  | .minus => "Minus"
  | .star => "Star"
  | .slash => "Slash"
  | .percent => "Percent"
  | .bang => "Bang"
  | .eq => "Eq"

def spelling : Operator → String
  | .orOr => "||"
  | .andAnd => "&&"
  | .eqEq => "=="
  | .notEq => "!="
  | .lt => "<"
  | .ltEq => "<="
  | .gt => ">"
  | .gtEq => ">="
  | .plus => "+"
  | .minus => "-"
  | .star => "*"
  | .slash => "/"
  | .percent => "%"
  | .bang => "!"
  | .eq => "="

/-- A larger number binds more tightly. -/
def precedence : Operator → Nat
  | .eq => 0
  | .orOr => 10
  | .andAnd => 20
  | .eqEq | .notEq | .lt | .ltEq | .gt | .gtEq => 30
  | .plus | .minus => 50
  | .star | .slash | .percent => 60
  | .bang => 70

def associativity : Operator → Associativity
  | .eqEq | .notEq | .lt | .ltEq | .gt | .gtEq => .none
  | .bang | .eq => .right
  | .orOr | .andAnd | .plus | .minus | .star | .slash | .percent => .left

def fixity : Operator → Fixity
  | .minus => .either
  | .bang => .before
  | _ => .between

def introduced (_ : Operator) : Release := .initial

def stability (_ : Operator) : Stability := .stable

def ofSpelling? (spelling : String) : Option Operator :=
  all.find? (·.spelling == spelling)

end Operator

end DataClass
