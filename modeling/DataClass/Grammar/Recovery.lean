import DataClass.Grammar.Cursor
namespace DataClass.Grammar

/-! Going on after a fault.

The parts of a body are read one by one. When one of them is faulty the fault is reported, and the
tokens up to the next place where a part may begin are skipped.
-/

/-- How to find the next part of a body. -/
structure Recovery where
  /-- The words that begin a part. -/
  restarts : List Keyword
  /-- Whether a closing brace ends the body. -/
  endsAtBrace : Bool

namespace Recovery

/-- Between the declarations of a program. -/
def declarations : Recovery :=
  ⟨[.classWord, .fnWord, .importWord, .pubWord, .privWord], false⟩

/-- Between the members of a class. -/
def members : Recovery :=
  ⟨[.fnWord, .newWord, .initWord, .classWord, .pubWord, .privWord], true⟩

/-- Between the statements of a block. -/
def statements : Recovery :=
  ⟨[.letWord, .returnWord, .ifWord, .whileWord], true⟩

/-- Whether a token begins a part: one of the words, or the sign of a tag. -/
def isRestart (recovery : Recovery) : TokenKind → Bool
  | .keyword word => recovery.restarts.contains word
  | .punctuation .at => true
  | _ => false

/-- Whether the body is at its end. -/
def isEnd (recovery : Recovery) : TokenKind → Bool
  | .endOfFile => true
  | .punctuation .rightBrace => recovery.endsAtBrace
  | _ => false

/-- Skip tokens. Outside of braces that were opened on the way, stop before the end of the body,
before a token that begins a part (but not before the very first token, which is where the fault
was), behind a semicolon, and behind the brace that closes a group. -/
def skip (recovery : Recovery) (moved : Bool) (depth : Nat) (previous : Option Span) :
    List Token → Option Span × List Token
  | [] => (previous, [])
  | token :: rest =>
      if token.kind = .endOfFile then (previous, token :: rest)
      else if depth = 0 && (recovery.isEnd token.kind || moved && recovery.isRestart token.kind) then
        (previous, token :: rest)
      else
        match token.kind with
        | .punctuation .leftBrace => recovery.skip true (depth + 1) (some token.span) rest
        | .punctuation .rightBrace =>
            if depth = 1 then (some token.span, rest)
            else recovery.skip true (depth - 1) (some token.span) rest
        | .punctuation .semicolon =>
            if depth = 0 then (some token.span, rest)
            else recovery.skip true depth (some token.span) rest
        | _ => recovery.skip true depth (some token.span) rest

end Recovery

namespace Reader

variable {α : Type}

def recover (recovery : Recovery) : Reader Unit := fun cursor =>
  let (previous, rest) := recovery.skip false 0 cursor.previous cursor.rest
  .value () { cursor with previous := previous, rest := rest }

/-- Read the parts of a body up to its end, leaving out the faulty ones. -/
def parts (recovery : Recovery) (part : Reader α) : Nat → Reader (List α)
  | 0 => return []
  | fuel + 1 => do
      if recovery.isEnd (← currentKind) then return []
      else
        match ← attempt part with
        | .ok first =>
            let later ← parts recovery part fuel
            return first :: later
        | .error fault =>
            report fault
            recover recovery
            parts recovery part fuel

/-- Read a body in braces. -/
def braced (recovery : Recovery) (opening closing : String) (part : Reader α) :
    Reader (List α) := do
  expect (.punctuation .leftBrace) opening
  let body ← parts recovery part (← remaining)
  expect (.punctuation .rightBrace) closing
  return body

end Reader

end DataClass.Grammar
