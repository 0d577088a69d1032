namespace DataClass

/-! Identifiers, and the names of accessors. -/

/-- The first character of an identifier: an ASCII letter or an underscore. -/
def isIdentifierStart (char : Char) : Bool := char.isAlpha || char == '_'

/-- A later character of an identifier: an ASCII letter, an ASCII digit or an underscore. -/
def isIdentifierRest (char : Char) : Bool := char.isAlphanum || char == '_'

def isIdentifierChars : List Char → Bool
  | [] => false
  | first :: rest => isIdentifierStart first && rest.all isIdentifierRest

def isIdentifier (name : String) : Bool := isIdentifierChars name.toList

def titlecaseChars : List Char → List Char
  | [] => []
  | first :: rest => first.toUpper :: rest

/-- Raise the first character if it is a lower-case ASCII letter. Nothing else changes. -/
def titlecase (name : String) : String := String.ofList (titlecaseChars name.toList)

inductive AccessorKind where
  | getter
  | setter
deriving DecidableEq

namespace AccessorKind

/-- The word that the names of such accessors begin with. -/
def lead : AccessorKind → String
  | .getter => "get"
  | .setter => "set"

end AccessorKind

/-- The name of an accessor of a field. -/
def accessorName (kind : AccessorKind) (field : String) : String :=
  kind.lead ++ titlecase field

/-- The marker that asks for accessors unless another one is chosen. -/
def defaultMarker : String := "Data"

end DataClass
