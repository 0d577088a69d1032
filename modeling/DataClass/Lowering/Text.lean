import DataClass.Lowering.Program
import DataClass.Text.Quoted
namespace DataClass.Lowering

/-! Generated code as text.

Tokens are set apart by spaces, and a line ends behind each semicolon and each brace. Where tokens
stand on a line means nothing in the target language, so a formatter can lay them out afterwards.
-/

namespace TargetToken

def text : TargetToken → String
  | .word spelling => spelling
  | .mark signs => signs
  | .number text => text
  | .string value => quoted value

def endsLine : TargetToken → Bool
  | .mark signs => signs == ";" || signs == "\x7b" || signs == "\x7d"
  | _ => false

end TargetToken

def Tokens.text (tokens : Tokens) : String :=
  String.join (tokens.map fun token => token.text ++ if token.endsLine then "\n" else " ")

def TargetFile.text (file : TargetFile) : String :=
  (match file.header with
    | some line => line ++ "\n"
    | none => "") ++ Tokens.text file.tokens

end DataClass.Lowering
