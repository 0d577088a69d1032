import DataClass.Outline.Basic
import DataClass.Text.Quoted
import DataClass.Token.Basic
namespace DataClass

/-! Outlines of tokens. -/

def Span.outline (span : Span) : Outline :=
  .record "Span" [("start", .word (toString span.start)), ("end", .word (toString span.stop))]

/-- A string, shown between quotes. -/
def Outline.string (value : String) : Outline := .word (quoted value)

def Outline.int (value : Int) : Outline := .word (toString value)

def Outline.float (value : Binary64) : Outline := .word (String.ofList value.scaledText)

def TokenKind.outline : TokenKind → Outline
  | .keyword word => .variant "Keyword" [.word word.name]
  | .operator sign => .variant "Operator" [.word sign.name]
  | .punctuation mark => .variant "Punctuation" [.word mark.name]
  | .identifier name => .variant "Ident" [.string name]
  | .int value => .variant "Int" [.int value]
  | .float value => .variant "Float" [.float value]
  | .string value => .variant "String" [.string value]
  | .endOfFile => .word "Eof"

def Token.outline (token : Token) : Outline :=
  .record "Token" [("kind", token.kind.outline), ("span", token.span.outline)]

/-- Tokens one below the other. -/
def Token.listing (tokens : List Token) : String :=
  String.join (tokens.map fun token => token.outline.inlineText ++ "\n")

end DataClass
