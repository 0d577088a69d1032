namespace DataClass.TargetWord

/-! Words that the target language reserves. -/

/-- Every reserved word of the target language. -/
def all : List String :=
  ["as", "break", "const", "continue", "crate", "else", "enum", "extern", "false", "fn", "for",
   "if", "impl", "in", "let", "loop", "match", "mod", "move", "mut", "pub", "ref", "return",
   "self", "Self", "static", "struct", "super", "trait", "true", "type", "unsafe", "use", "where",
   "while", "async", "await", "dyn", "abstract", "become", "box", "do", "final", "gen", "macro",
   "override", "priv", "typeof", "unsized", "virtual", "yield", "try"]

/-- The reserved words that stay reserved behind the raw mark `r#`. -/
def neverRaw : List String := ["self", "Self", "super", "crate"]

def isReserved (word : String) : Bool := all.contains word

def canBeRaw (word : String) : Bool := !neverRaw.contains word

end DataClass.TargetWord
