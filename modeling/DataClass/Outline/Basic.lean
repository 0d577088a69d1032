import DataClass.Layout.Line
namespace DataClass

/-! Outlines: nested values written out with the names of their parts, either on one line or with
each part on a line of its own. -/

/-- The signs around the parts of a group. -/
inductive Bracket where
  | braces
  | parens
  | square
deriving DecidableEq

namespace Bracket

def opening : Bracket → String
  | .braces => " \x7b"
  | .parens => "("
  | .square => "["

def closing : Bracket → String
  | .braces => "\x7d"
  | .parens => ")"
  | .square => "]"

/-- What separates the signs from the parts on one line. -/
def gap : Bracket → String
  | .braces => " "
  | .parens | .square => ""

end Bracket

inductive Outline where
  | word (text : String)
  | labelled (label : String) (value : Outline)
  | group (head : String) (bracket : Bracket) (parts : List Outline)

namespace Outline

/-- A named value whose parts have names. -/
def record (name : String) (fields : List (String × Outline)) : Outline :=
  .group name .braces (fields.map fun field => .labelled field.1 field.2)

/-- A named value whose parts have none. -/
def variant (name : String) (parts : List Outline) : Outline := .group name .parens parts

def list (parts : List Outline) : Outline := .group "" .square parts

/-- A part that may be missing. -/
def optional : Option Outline → Outline
  | none => .word "None"
  | some value => variant "Some" [value]

mutual

/-- The outline on one line. -/
def inlineText : Outline → String
  | .word text => text
  | .labelled label value => label ++ ": " ++ inlineText value
  | .group head bracket parts =>
      head ++ bracket.opening ++ bracket.gap ++ ", ".intercalate (inlineTexts parts) ++
        bracket.gap ++ bracket.closing

def inlineTexts : List Outline → List String
  | [] => []
  | part :: rest => inlineText part :: inlineTexts rest

end

mutual

/-- The lines of an outline that has `before` in front of it and `after` behind it. A group without
parts stays on one line. -/
def lines (before after : String) : Outline → List Layout.Line
  | .word text => [.plain (before ++ text ++ after)]
  | .labelled label value => lines (before ++ label ++ ": ") after value
  | .group head bracket [] => [.plain (before ++ head ++ bracket.opening ++ bracket.closing ++ after)]
  | .group head bracket (part :: rest) =>
      .plain (before ++ head ++ bracket.opening) ::
        (lines "" "," part ++ partLines rest).map Layout.Line.indent ++
          [.plain (bracket.closing ++ after)]

/-- The lines of parts that end in a comma each. -/
def partLines : List Outline → List Layout.Line
  | [] => []
  | part :: rest => lines "" "," part ++ partLines rest

end

/-- The outline with a line for each part, four spaces deeper than what holds it. -/
def text (outline : Outline) : String := Layout.Line.renderAll 4 (outline.lines "" "")

end Outline

end DataClass
