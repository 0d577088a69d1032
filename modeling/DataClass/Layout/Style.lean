namespace DataClass.Layout

/-! Choices in the written form of a program. -/

/-- The mark around a string. -/
inductive Quote where
  | double
  | single
deriving DecidableEq

def Quote.mark : Quote → Char
  | .double => '"'
  | .single => '\''

structure Style where
  /-- Spaces for one level of depth. -/
  indentWidth : Nat
  quote : Quote
  /-- Blank lines between declarations; imports stand together. -/
  blankLinesTopLevel : Nat
  /-- Blank lines between members; fields stand together. -/
  blankLinesMembers : Nat
deriving DecidableEq

/-- The style of formatted files. -/
def Style.standard : Style := ⟨4, .double, 1, 1⟩

end DataClass.Layout
