import DataClass.Program.Basic
namespace DataClass

/-! Addresses of classes.

An address is a list of indices: the first one selects a declaration of the program, and every later
one a member of the class reached so far. Members are only ever added at the end of a class, so an
address keeps its meaning.
-/

abbrev Path := List Nat

namespace Path

/-- The order in which addresses come in the source: element by element, and a class before its
members. -/
def compare : Path → Path → Ordering
  | [], [] => .eq
  | [], _ :: _ => .lt
  | _ :: _, [] => .gt
  | left :: lefts, right :: rights =>
      if left < right then .lt
      else if right < left then .gt
      else compare lefts rights

/-- The indices with a point between two of them. -/
def dotted (path : Path) : String := ".".intercalate (path.map toString)

end Path

namespace Member

/-- Change a nested class; other members stay as they are. -/
def onNested (change : Class → Class) : Member → Member
  | .nested span decl => .nested span (change decl)
  | member => member

end Member

namespace Class

/-- The class at an address below this class. -/
def descend? (decl : Class) : Path → Option Class
  | [] => some decl
  | index :: rest => (decl.members[index]?.bind Member.nested?).bind fun nested => nested.descend? rest

/-- Change the class at an address below this class. -/
def updateBelow (change : Class → Class) : Path → Class → Class
  | [], decl => change decl
  | index :: rest, decl =>
      { decl with members := decl.members.modify index (Member.onNested (updateBelow change rest)) }

/-- Add members behind the ones that are there. -/
def append (added : List Member) (decl : Class) : Class :=
  { decl with members := decl.members ++ added }

end Class

namespace Declaration

/-- Change a class; other declarations stay as they are. -/
def onClass (change : Class → Class) : Declaration → Declaration
  | .type span decl => .type span (change decl)
  | declaration => declaration

end Declaration

namespace Program

/-- The class at an address, if there is one. -/
def classAt? (program : Program) : Path → Option Class
  | [] => none
  | index :: rest =>
      (program.declarations[index]?.bind Declaration.class?).bind fun decl => decl.descend? rest

/-- Change the class at an address. Without such a class nothing changes. -/
def updateAt (change : Class → Class) (path : Path) (program : Program) : Program :=
  match path with
  | [] => program
  | index :: rest =>
      ⟨program.declarations.modify index (Declaration.onClass (Class.updateBelow change rest))⟩

end Program

end DataClass
