import DataClass.Program.Path
namespace DataClass.Accessor

/-! Finding the elements of a program that carry the marker. -/

/-- The pieces of a text between its points. -/
def piecesAtDots : List Char → List (List Char)
  | [] => [[]]
  | char :: rest =>
      if char = '.' then [] :: piecesAtDots rest
      else
        match piecesAtDots rest with
        | [] => [[char]]
        | piece :: pieces => (char :: piece) :: pieces

/-- The tag that asks for accessors, as a path. -/
structure Marker where
  path : List String
deriving DecidableEq

namespace Marker

def ofText (text : String) : Marker := ⟨(piecesAtDots text.toList).map String.ofList⟩

/-- A tag is the marker if it has the same path, or if it is just the last name of that path. -/
def isMark (marker : Marker) (tag : Tag) : Bool :=
  tag.path == marker.path ||
    match tag.path, marker.path.getLast? with
    | [name], some last => name == last
    | _, _ => false

def isOn (marker : Marker) (tags : List Tag) : Bool := tags.any marker.isMark

end Marker

inductive ElementKind where
  | type
  | field
  | method
  | constructor
  | initializer
  | function
  | importPath
deriving DecidableEq

namespace ElementKind

def name : ElementKind → String
  | .type => "type"
  | .field => "field"
  | .method => "method"
  | .constructor => "constructor"
  | .initializer => "initializer"
  | .function => "function"
  | .importPath => "import"

def all : List ElementKind :=
  [.type, .field, .method, .constructor, .initializer, .function, .importPath]

def ofName? (name : String) : Option ElementKind := all.find? (·.name == name)

def ofMember : Member → ElementKind
  | .field _ _ => .field
  | .method _ _ => .method
  | .constructor _ _ => .constructor
  | .initializer _ _ => .initializer
  | .nested _ _ => .type

end ElementKind

/-- An element that carries the marker. -/
structure TaggedElement where
  path : Path
  kind : ElementKind
  name : String
  span : Span
deriving DecidableEq

/-- The entry of an element, if it carries the marker. -/
def taggedIf (marker : Marker) (tags : List Tag) (element : TaggedElement) : List TaggedElement :=
  if marker.isOn tags then [element] else []

mutual

/-- The marked elements of a member: itself, and what lies inside of a nested class. A member
without a name is listed under the name of its kind. -/
def taggedInMember (marker : Marker) (path : Path) : Member → List TaggedElement
  | .nested span decl => taggedInClass marker path span decl
  | .field span decl => taggedIf marker decl.tags ⟨path, .field, decl.name, span⟩
  | .method span decl => taggedIf marker decl.tags ⟨path, .method, decl.name, span⟩
  | .constructor span decl =>
      taggedIf marker decl.tags ⟨path, .constructor, ElementKind.constructor.name, span⟩
  | .initializer _ _ => []

/-- The marked elements of a class: itself first, then those of its members. -/
def taggedInClass (marker : Marker) (path : Path) (span : Span) : Class → List TaggedElement
  | ⟨tags, _, name, members⟩ =>
      taggedIf marker tags ⟨path, .type, name, span⟩ ++ taggedMembersFrom marker path 0 members

/-- The marked elements of the members from an index on. -/
def taggedMembersFrom (marker : Marker) (path : Path) (index : Nat) :
    List Member → List TaggedElement
  | [] => []
  | member :: rest =>
      taggedInMember marker (path ++ [index]) member ++ taggedMembersFrom marker path (index + 1) rest

end

def taggedInDeclaration (marker : Marker) (path : Path) : Declaration → List TaggedElement
  | .importPath _ _ => []
  | .type span decl => taggedInClass marker path span decl
  | .function span decl => taggedIf marker decl.tags ⟨path, .function, decl.name, span⟩

/-- The marked elements of the declarations from an index on. -/
def taggedDeclarationsFrom (marker : Marker) (index : Nat) : List Declaration → List TaggedElement
  | [] => []
  | declaration :: rest =>
      taggedInDeclaration marker [index] declaration ++ taggedDeclarationsFrom marker (index + 1) rest

/-- Every marked element of a program, in source order. -/
def tagged (marker : Marker) (program : Program) : List TaggedElement :=
  taggedDeclarationsFrom marker 0 program.declarations

/-- A marked class with its address and the place of its entry. -/
structure TaggedClass where
  path : Path
  span : Span
  decl : Class

/-- Put an entry into a list that is ordered by address. An address that is there already keeps its
first entry. -/
def insertEntry (path : Path) (span : Span) : List (Path × Span) → List (Path × Span)
  | [] => [(path, span)]
  | entry :: rest =>
      match Path.compare path entry.1 with
      | .lt => (path, span) :: entry :: rest
      | .eq => entry :: rest
      | .gt => entry :: insertEntry path span rest

/-- The addresses of the marked classes, in order and each only once. -/
def classEntries (elements : List TaggedElement) : List (Path × Span) :=
  (elements.filter (·.kind == .type)).foldl
    (fun entries element => insertEntry element.path element.span entries) []

/-- The marked classes of a program in the order of their addresses. Marks on anything else, and
addresses without a class, are left out. -/
def taggedClasses (program : Program) (elements : List TaggedElement) : List TaggedClass :=
  (classEntries elements).filterMap fun entry =>
    (program.classAt? entry.1).map fun decl => ⟨entry.1, entry.2, decl⟩

end DataClass.Accessor
