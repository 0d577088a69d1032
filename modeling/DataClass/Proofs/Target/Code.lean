import DataClass.Lowering.Stmt
import DataClass.Proofs.Target.Tree
namespace DataClass.Target

open Lowering

/-! Statements of the target language, as far as lowered programs use it, and what they write to. -/

/-- What may be changed at one place: an assignment to it, or the call of a method on it. -/
inductive Write (Place : Type) where
  | assign (place : Place)
  | call (place : Place) (method : String)

def Write.place {Place : Type} : Write Place → Place
  | .assign place | .call place _ => place

namespace Tree

mutual

/-- The calls of methods in a tree, each before those in its parts. Any of them may change what it is
called on. -/
def calls : Tree → List (Write Tree)
  | .number _ | .string _ | .bool _ | .path _ _ => []
  | .field base _ => base.calls
  | .call callee arguments => callee.calls ++ callsAll arguments
  | .methodCall receiver name arguments =>
      .call receiver name :: (receiver.calls ++ callsAll arguments)
  | .unary _ operand => operand.calls
  | .binary left _ right => left.calls ++ right.calls
  | .paren inner => inner.calls

def callsAll : List Tree → List (Write Tree)
  | [] => []
  | tree :: rest => tree.calls ++ callsAll rest

end

def optionCalls : Option Tree → List (Write Tree)
  | none => []
  | some tree => tree.calls

end Tree

/-- A name that is bound, and whether what it is bound to may be changed. -/
structure Binding where
  isMutable : Bool
  name : String

def Binding.tokens (binding : Binding) : Tokens :=
  if binding.isMutable then [.word "mut", .word binding.name] else [.word binding.name]

inductive Code where
  | declare (binding : Binding) (type : Tokens) (value : Option Tree)
  | assign (target value : Tree)
  | giveBack (value : Option Tree)
  | choose (condition : Tree) (thenCode : List Code) (elseCode : Option (List Code))
  | repeatWhile (condition : Tree) (body : List Code)
  | evaluate (expr : Tree)

namespace Code

/-- Whether code behind an `else` is another `if`, which needs no braces. -/
def isElseIf : List Code → Bool
  | [.choose _ _ _] => true
  | _ => false

mutual

def tokens : Code → Tokens
  | .declare binding type none => ended (.word "let" :: binding.tokens ++ type)
  | .declare binding type (some value) =>
      ended (.word "let" :: binding.tokens ++ type ++ .mark "=" :: value.tokens)
  | .assign target value => ended (target.tokens ++ .mark "=" :: value.tokens)
  | .giveBack none => ended [.word "return"]
  | .giveBack (some value) => ended (.word "return" :: value.tokens)
  | .choose condition thenCode none =>
      .word "if" :: condition.tokens ++ Tokens.inBraces (tokensAll thenCode)
  | .choose condition thenCode (some elseCode) =>
      .word "if" :: condition.tokens ++ Tokens.inBraces (tokensAll thenCode) ++ .word "else" ::
        if isElseIf elseCode then tokensAll elseCode else Tokens.inBraces (tokensAll elseCode)
  | .repeatWhile condition body =>
      .word "while" :: condition.tokens ++ Tokens.inBraces (tokensAll body)
  | .evaluate expr => ended expr.tokens

def tokensAll : List Code → Tokens
  | [] => []
  | code :: rest => code.tokens ++ tokensAll rest

end

mutual

/-- The assignments and the calls of methods in their order. -/
def writes : Code → List (Write Tree)
  | .declare _ _ value => Tree.optionCalls value
  | .assign target value => .assign target :: (target.calls ++ value.calls)
  | .giveBack value => Tree.optionCalls value
  | .choose condition thenCode none => condition.calls ++ writesAll thenCode
  | .choose condition thenCode (some elseCode) =>
      condition.calls ++ writesAll thenCode ++ writesAll elseCode
  | .repeatWhile condition body => condition.calls ++ writesAll body
  | .evaluate expr => expr.calls

def writesAll : List Code → List (Write Tree)
  | [] => []
  | code :: rest => code.writes ++ writesAll rest

end

mutual

/-- The variables that are declared, in their order. -/
def declared : Code → List Binding
  | .declare binding _ _ => [binding]
  | .choose _ thenCode none => declaredAll thenCode
  | .choose _ thenCode (some elseCode) => declaredAll thenCode ++ declaredAll elseCode
  | .repeatWhile _ body => declaredAll body
  | .assign _ _ | .giveBack _ | .evaluate _ => []

def declaredAll : List Code → List Binding
  | [] => []
  | code :: rest => code.declared ++ declaredAll rest

end

end Code

end DataClass.Target
