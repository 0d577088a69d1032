namespace DataClass.Layout

/-! Lines at a depth, which become text when a level of depth is given a width. -/

structure Line where
  depth : Nat
  text : String
deriving DecidableEq

namespace Line

def plain (text : String) : Line := ⟨0, text⟩

def blank : Line := ⟨0, ""⟩

/-- Move a line one level to the right. -/
def indent (line : Line) : Line := { line with depth := line.depth + 1 }

/-- The line with its spaces and its line feed. A line without text has no spaces either. -/
def render (width : Nat) (line : Line) : String :=
  if line.text.isEmpty then "\n"
  else String.ofList (List.replicate (line.depth * width) ' ') ++ line.text ++ "\n"

def renderAll (width : Nat) (lines : List Line) : String :=
  String.join (lines.map (render width))

/-- Write lines in braces behind a text. The last line is left open, so that more can be written
behind the closing brace. -/
def enclose (head : String) (body : List Line) : List Line × String :=
  if body.isEmpty then ([], head ++ "\x7b\x7d")
  else (plain (head ++ "\x7b") :: body.map indent, "\x7d")

/-- Write lines in braces behind a text, and nothing more. -/
def block (head : String) (body : List Line) : List Line :=
  let (before, last) := enclose head body
  before ++ [plain last]

end Line

end DataClass.Layout
