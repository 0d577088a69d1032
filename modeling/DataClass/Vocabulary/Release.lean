namespace DataClass

/-! When a word joined the language, and whether it is there to stay. -/

/-- A version of the language. -/
structure Release where
  major : Nat
  minor : Nat
deriving DecidableEq

namespace Release

/-- The version that every word so far came with. -/
def initial : Release := ⟨0, 1⟩

def text (release : Release) : String :=
  toString release.major ++ "." ++ toString release.minor

end Release

inductive Stability where
  | stable
  | draft
  | deprecated
deriving DecidableEq

namespace Stability

def name : Stability → String
  | .stable => "Stable"
  | .draft => "Draft"
  | .deprecated => "Deprecated"

end Stability

end DataClass
