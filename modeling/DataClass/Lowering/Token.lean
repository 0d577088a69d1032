namespace DataClass.Lowering

/-! Tokens of the target language. -/

inductive TargetToken where
  /-- An identifier or a reserved word. -/
  | word (spelling : String)
  /-- An operator, a separator, or one side of a pair of brackets. -/
  | mark (signs : String)
  | number (text : String)
  | string (value : String)
deriving DecidableEq

abbrev Tokens := List TargetToken

namespace Tokens

def word (spelling : String) : Tokens := [.word spelling]

def mark (signs : String) : Tokens := [.mark signs]

def inParens (inner : Tokens) : Tokens := .mark "(" :: inner ++ [.mark ")"]

def inBrackets (inner : Tokens) : Tokens := .mark "[" :: inner ++ [.mark "]"]

def inBraces (inner : Tokens) : Tokens := .mark "\x7b" :: inner ++ [.mark "\x7d"]

/-- Put a separator between the parts. -/
def separated (separator : Tokens) : List Tokens → Tokens
  | [] => []
  | [last] => last
  | first :: rest => first ++ separator ++ separated separator rest

def commaSeparated (parts : List Tokens) : Tokens := separated (mark ",") parts

/-- A path of segments. -/
def path (segments : List TargetToken) : Tokens :=
  separated (mark "::") (segments.map fun segment => [segment])

end Tokens

end DataClass.Lowering
