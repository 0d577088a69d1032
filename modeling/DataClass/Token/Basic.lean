import DataClass.Number.Decimal
import DataClass.Text.Span
import DataClass.Vocabulary.Keyword
import DataClass.Vocabulary.Operator
import DataClass.Vocabulary.Punctuation
namespace DataClass

/-! Tokens: the words of a program, each with its range of the source. -/

inductive TokenKind where
  | keyword (word : Keyword)
  | operator (sign : Operator)
  | punctuation (mark : Punctuation)
  | identifier (name : String)
  | int (value : Int)
  | float (value : Binary64)
  | string (value : String)
  | endOfFile
deriving DecidableEq

namespace TokenKind

/-- The words for a token in a message. -/
def describe : TokenKind → String
  | .keyword word => "'" ++ word.canonical ++ "'"
  | .operator sign => "'" ++ sign.spelling ++ "'"
  | .punctuation mark => "'" ++ mark.spelling ++ "'"
  | .identifier name => "identifier '" ++ name ++ "'"
  | .int value => "integer " ++ toString value
  | .float value => "float " ++ String.ofList value.plainText
  | .string _ => "string literal"
  | .endOfFile => "end of file"

def identifier? : TokenKind → Option String
  | .identifier name => some name
  | _ => none

/-- Whether the token is the keyword, operator or punctuation mark with this spelling. Words that
are spelled in several ways match under each of them. -/
def isSpelled (spelling : String) : TokenKind → Bool
  | .keyword word => Keyword.ofSpelling? spelling == some word
  | .operator sign => Operator.ofSpelling? spelling == some sign
  | .punctuation mark => Punctuation.ofSpelling? spelling == some mark
  | _ => false

end TokenKind

structure Token where
  kind : TokenKind
  span : Span
deriving DecidableEq

namespace Token

/-- The same token of a text that has `offset` more bytes in front. -/
def shift (offset : Nat) (token : Token) : Token :=
  { token with span := token.span.shift offset }

end Token

end DataClass
