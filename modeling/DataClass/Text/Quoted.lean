import DataClass.Text.Invisible
namespace DataClass

/-! Quoted strings: one line between double quotes, with nothing in it that cannot be seen. -/

/-- The code point of a character in lower-case hexadecimal digits. -/
def codePointEscape (char : Char) : List Char :=
  "\\u\x7b".toList ++ Nat.toDigits 16 char.toNat ++ ['\x7d']

/-- The characters that stand for one character of the string. -/
def quotedChar (char : Char) : List Char :=
  match char with
  | '\x00' => ['\\', '0']
  | '\t' => ['\\', 't']
  | '\n' => ['\\', 'n']
  | '\r' => ['\\', 'r']
  | '"' => ['\\', '"']
  | '\\' => ['\\', '\\']
  | _ => if isInvisible char then codePointEscape char else [char]

/-- A string between double quotes. -/
def quoted (value : String) : String :=
  String.ofList ('"' :: value.toList.flatMap quotedChar ++ ['"'])

end DataClass
