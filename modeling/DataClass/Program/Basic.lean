import DataClass.Program.Class
namespace DataClass

/-! Programs: imports, classes and functions in the order of the source. -/

inductive Declaration where
  | importPath (span : Span) (path : List String)
  | type (span : Span) (decl : Class)
  | function (span : Span) (decl : Method)

namespace Declaration

def span : Declaration → Span
  | .importPath span _ | .type span _ | .function span _ => span

def class? : Declaration → Option Class
  | .type _ decl => some decl
  | _ => none

def isImport : Declaration → Bool
  | .importPath _ _ => true
  | _ => false

def mapSpans (move : Span → Span) : Declaration → Declaration
  | .importPath span path => .importPath (move span) path
  | .type span decl => .type (move span) (decl.mapSpans move)
  | .function span decl => .function (move span) (decl.mapSpans move)

def agrees (near : Span → Span → Bool) : Declaration → Declaration → Bool
  | .importPath left path, .importPath right path' => near left right && path == path'
  | .type left decl, .type right decl' => near left right && decl.agrees near decl'
  | .function left decl, .function right decl' => near left right && decl.agrees near decl'
  | _, _ => false

end Declaration

structure Program where
  declarations : List Declaration

namespace Program

def empty : Program := ⟨[]⟩

/-- The classes that are not nested in another class. -/
def classes (program : Program) : List Class := program.declarations.filterMap Declaration.class?

/-- Functions and methods of classes that are not nested, in source order. -/
def topMethods (program : Program) : List Method :=
  program.declarations.flatMap fun
    | .importPath _ _ => []
    | .type _ decl => decl.methods
    | .function _ decl => [decl]

def mapSpans (move : Span → Span) (program : Program) : Program :=
  ⟨program.declarations.map (·.mapSpans move)⟩

/-- The program of a text that has `offset` more bytes in front. -/
def shift (offset : Nat) : Program → Program := mapSpans (·.shift offset)

/-- The program without its places: every range is the same. -/
def erase : Program → Program := mapSpans fun _ => .origin

/-- Equal programs at equal places. -/
def same (left right : Program) : Bool :=
  agreesList (Declaration.agrees fun first second => first == second)
    left.declarations right.declarations

end Program

end DataClass
