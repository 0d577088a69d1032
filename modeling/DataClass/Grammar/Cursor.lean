import DataClass.Diagnostic.Basic
import DataClass.Token.Basic
namespace DataClass.Grammar

/-! Reading a list of tokens from left to right.

A cursor knows the tokens that are still to be read and the place of the one read last. A reader
takes a cursor to a value or to a fault, and in both cases to the cursor it stopped at. No
reader goes past the token that marks the end.
-/

structure Cursor where
  /-- The range of the token read last, if any has been read. -/
  previous : Option Span
  /-- The tokens still to be read. -/
  rest : List Token
  /-- The faults reported so far, the latest first. -/
  reported : List Diagnostic

namespace Cursor

def ofTokens (tokens : List Token) : Cursor := ⟨none, tokens, []⟩

/-- The token to be read next. Past the last token there is only the end. -/
def current (cursor : Cursor) : Token := cursor.rest.head?.getD ⟨.endOfFile, .origin⟩

/-- The range of the token read last; before the first one, the range of the next. -/
def previousSpan (cursor : Cursor) : Span := cursor.previous.getD cursor.current.span

/-- Step over one token. The end stays where it is. -/
def step (cursor : Cursor) : Cursor :=
  match cursor.rest with
  | [] => cursor
  | token :: rest =>
      if token.kind = .endOfFile then cursor
      else { cursor with previous := some token.span, rest := rest }

end Cursor

inductive Outcome (α : Type) where
  | value (result : α) (next : Cursor)
  | failure (fault : Diagnostic) (next : Cursor)

/-- A step of reading. -/
def Reader (α : Type) : Type := Cursor → Outcome α

namespace Reader

variable {α β : Type}

def run (reader : Reader α) (cursor : Cursor) : Outcome α := reader cursor

instance : Monad Reader where
  pure result := fun cursor => .value result cursor
  bind reader following := fun cursor =>
    match reader cursor with
    | .value result next => following result next
    | .failure fault next => .failure fault next

/-- The token to be read next. -/
def current : Reader Token := fun cursor => .value cursor.current cursor

def currentKind : Reader TokenKind := fun cursor => .value cursor.current.kind cursor

/-- How many tokens are still to be read. -/
def remaining : Reader Nat := fun cursor => .value cursor.rest.length cursor

def previousSpan : Reader Span := fun cursor => .value cursor.previousSpan cursor

/-- The range from an offset to the end of the token read last. -/
def spanFrom (start : Nat) : Reader Span := fun cursor =>
  .value ⟨start, max cursor.previousSpan.stop start⟩ cursor

/-- Step over the next token. -/
def advance : Reader Unit := fun cursor => .value () cursor.step

def fail (fault : Diagnostic) : Reader α := fun cursor => .failure fault cursor

/-- Report a fault and go on. -/
def report (fault : Diagnostic) : Reader Unit := fun cursor =>
  .value () { cursor with reported := fault :: cursor.reported }

/-- Fail because the next token is not what has to stand here. -/
def failExpected (expected : String) : Reader α := fun cursor =>
  .failure
    (.syntaxFault ("Expected " ++ expected ++ ", found " ++ cursor.current.kind.describe)
      cursor.current.span)
    cursor

/-- Turn a failure into a value, staying where the reader stopped. -/
def attempt (reader : Reader α) : Reader (Except Diagnostic α) := fun cursor =>
  match reader cursor with
  | .value result next => .value (.ok result) next
  | .failure fault next => .value (.error fault) next

/-- Whether the next token is of a kind. -/
def isNext (kind : TokenKind) : Reader Bool := fun cursor =>
  .value (cursor.current.kind == kind) cursor

/-- Step over the next token if it is of a kind, and tell whether it was. -/
def accept (kind : TokenKind) : Reader Bool := fun cursor =>
  if cursor.current.kind == kind then .value true cursor.step else .value false cursor

/-- Step over the next token, which has to be of a kind. -/
def expect (kind : TokenKind) (expected : String) : Reader Unit := do
  if ← accept kind then return () else failExpected expected

/-- Read an identifier. -/
def identifier : Reader String := do
  match ← currentKind with
  | .identifier name => advance; return name
  | _ => failExpected "identifier"

/-- Read what follows a point, as long as there are points. -/
def segments : Nat → Reader (List String)
  | 0 => return []
  | fuel + 1 => do
      if ← accept (.punctuation .dot) then
        let segment ← identifier
        let later ← segments fuel
        return segment :: later
      else return []

/-- Read a path such as `a.b.C`. -/
def dottedPath : Reader (List String) := do
  let first ← identifier
  let later ← segments (← remaining)
  return first :: later

/-- Read an item after each comma. -/
def itemsAfterComma (item : Reader α) : Nat → Reader (List α)
  | 0 => return []
  | fuel + 1 => do
      if ← accept (.punctuation .comma) then
        let first ← item
        let later ← itemsAfterComma item fuel
        return first :: later
      else return []

/-- Read one item or more, with a comma between two of them. -/
def commaSeparated (item : Reader α) : Reader (List α) := do
  let first ← item
  let later ← itemsAfterComma item (← remaining)
  return first :: later

/-- Read a list in parentheses, possibly empty. -/
def parenthesized (opening closing : String) (item : Reader α) : Reader (List α) := do
  expect (.punctuation .leftParen) opening
  if ← accept (.punctuation .rightParen) then return []
  else
    let items ← commaSeparated item
    expect (.punctuation .rightParen) closing
    return items

end Reader

end DataClass.Grammar
