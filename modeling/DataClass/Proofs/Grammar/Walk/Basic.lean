import DataClass.Grammar.Cursor
namespace DataClass.Grammar

/-! Reading tokens by their index.

A reader holds the tokens that are still ahead of it, and where a loop of it has no turns left it goes on
as if the loop were done. A walk goes through the same productions with nothing but an index into one list
of tokens: a token is only had by its index, an index without a token breaks the walk off, and a loop or
recursion that is out of turns has no result at all. So a walk ends where it has a result for enough turns.
Where it has been and which tokens it has looked at is written down on the way.
-/

/-- Where a walk is, and what it has done so far. -/
structure Place where
  position : Nat
  /-- Every position so far, the latest first. -/
  visited : List Nat
  /-- The indices of the tokens looked at so far, the latest first. -/
  looked : List Nat
  /-- The faults reported so far, the latest first. -/
  reported : List Diagnostic

def Place.start : Place := ⟨0, [0], [], []⟩

/-- There is no token at an index that was looked at. -/
structure OutOfBounds where

/-- A walk over tokens, which may not end. -/
abbrev Walk : Type → Type := ReaderT (List Token) (StateT Place (ExceptT OutOfBounds Option))

/-- A walk that may end with a fault. -/
abbrev Trial : Type → Type := ExceptT Diagnostic Walk

namespace Walk

/-- A walk that is out of turns. -/
def endless {α : Type} : Walk α := fun _ _ => none

def position : Walk Nat := return (← get).position

def reported : Walk (List Diagnostic) := return (← get).reported

def tokenAt (index : Nat) : Walk Token := do
  match (← read)[index]? with
  | none => throw {}
  | some token =>
      modify fun place => { place with looked := index :: place.looked }
      return token

/-- The token at the position, or the last one of all. -/
def current : Walk Token := do tokenAt (min (← position) ((← read).length - 1))

def currentKind : Walk TokenKind := return (← current).kind

def isNext (kind : TokenKind) : Walk Bool := return (← currentKind) == kind

/-- The token before the position. -/
def lookBack : Walk Token := do tokenAt ((← position) - 1)

def step : Walk Unit :=
  modify fun place =>
    { place with position := place.position + 1, visited := (place.position + 1) :: place.visited }

/-- Step over the next token, unless it is the end, and look back at it. -/
def advance : Walk Unit := do
  if ← isNext .endOfFile then
    let _ ← lookBack
  else
    step
    let _ ← lookBack

def accept (kind : TokenKind) : Walk Bool := do
  if ← isNext kind then
    advance
    return true
  else return false

def previousSpan : Walk Span := do
  if (← position) = 0 then return (← current).span
  else return (← lookBack).span

def spanFrom (start : Nat) : Walk Span := return ⟨start, max (← previousSpan).stop start⟩

def report (fault : Diagnostic) : Walk Unit :=
  modify fun place => { place with reported := fault :: place.reported }

end Walk

namespace Trial

open Walk

/-- A walk that is out of turns. -/
def endless {α : Type} : Trial α := ExceptT.mk Walk.endless

def failExpected {α : Type} (expected : String) : Trial α := do
  let kind ← currentKind
  let token ← current
  throw (.syntaxFault ("Expected " ++ expected ++ ", found " ++ kind.describe) token.span)

def expect (kind : TokenKind) (expected : String) : Trial Unit := do
  if ← accept kind then return () else failExpected expected

def identifier : Trial String := do
  match ← currentKind with
  | .identifier name => advance; return name
  | _ => failExpected "identifier"

def segments : Nat → Trial (List String)
  | 0 => endless
  | turns + 1 => do
      if ← accept (.punctuation .dot) then
        let segment ← identifier
        return segment :: (← segments turns)
      else return []

def dottedPath (turns : Nat) : Trial (List String) := do
  let first ← identifier
  return first :: (← segments turns)

end Trial

end DataClass.Grammar
