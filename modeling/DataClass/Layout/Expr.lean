import DataClass.Layout.Style
import DataClass.Number.Decimal
import DataClass.Program.Expr
namespace DataClass.Layout

/-! Expressions as text. -/

/-- The characters that stand for one character inside of a string. -/
def escapeChar (quote char : Char) : List Char :=
  if char = '\n' then ['\\', 'n']
  else if char = '\r' then ['\\', 'r']
  else if char = '\t' then ['\\', 't']
  else if char = '\\' then ['\\', '\\']
  else if char = quote then ['\\', quote]
  else [char]

def escapeChars (quote : Char) (chars : List Char) : List Char :=
  chars.flatMap (escapeChar quote)

/-- A string between its quotes. -/
def stringText (quote : Quote) (value : String) : String :=
  String.ofList (quote.mark :: escapeChars quote.mark value.toList ++ [quote.mark])

def boolText (value : Bool) : String := if value then "true" else "false"

mutual

/-- The expression with the parentheses that it was read with, and with no others. -/
def exprText (quote : Quote) : Expr → String
  | .int _ value => toString value
  | .float _ value => String.ofList value.pointedText
  | .string _ value => stringText quote value
  | .bool _ value => boolText value
  | .null _ => "null"
  | .ident _ name => name
  | .this _ => "this"
  | .field _ base name => exprText quote base ++ "." ++ name
  | .call _ callee arguments => exprText quote callee ++ "(" ++ argumentsText quote arguments ++ ")"
  | .methodCall _ receiver name arguments =>
      exprText quote receiver ++ "." ++ name ++ "(" ++ argumentsText quote arguments ++ ")"
  | .unary _ op operand => op.operator.spelling ++ exprText quote operand
  | .binary _ left op right =>
      exprText quote left ++ " " ++ op.operator.spelling ++ " " ++ exprText quote right
  | .paren _ inner => "(" ++ exprText quote inner ++ ")"

/-- Arguments with a comma between two of them. -/
def argumentsText (quote : Quote) : List Expr → String
  | [] => ""
  | first :: rest => exprText quote first ++ laterArgumentsText quote rest

def laterArgumentsText (quote : Quote) : List Expr → String
  | [] => ""
  | next :: rest => ", " ++ exprText quote next ++ laterArgumentsText quote rest

end

end DataClass.Layout
