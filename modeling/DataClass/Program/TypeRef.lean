import DataClass.Text.Span
namespace DataClass

/-! Type references: what a program writes where a type is expected. -/

inductive TypeRef where
  | named (span : Span) (path : List String) (arguments : List TypeRef)
  | array (span : Span) (element : TypeRef)
  | void (span : Span)

namespace TypeRef

def span : TypeRef → Span
  | .named span _ _ => span
  | .array span _ => span
  | .void span => span

def isVoid : TypeRef → Bool
  | .void _ => true
  | _ => false

mutual

/-- Change every range. -/
def mapSpans (move : Span → Span) : TypeRef → TypeRef
  | .named span path arguments => .named (move span) path (mapSpansAll move arguments)
  | .array span element => .array (move span) (element.mapSpans move)
  | .void span => .void (move span)

def mapSpansAll (move : Span → Span) : List TypeRef → List TypeRef
  | [] => []
  | type :: rest => type.mapSpans move :: mapSpansAll move rest

end

theorem mapSpansAll_eq_map (move : Span → Span) (types : List TypeRef) :
    mapSpansAll move types = types.map (mapSpans move) := by
  induction types with
  | nil => rfl
  | cons type rest ih => simp [mapSpansAll, ih]

mutual

/-- Compare two type references, their ranges by `near`. -/
def agrees (near : Span → Span → Bool) : TypeRef → TypeRef → Bool
  | .named left path arguments, .named right path' arguments' =>
      near left right && path == path' && agreesAll near arguments arguments'
  | .array left element, .array right element' => near left right && element.agrees near element'
  | .void left, .void right => near left right
  | _, _ => false

def agreesAll (near : Span → Span → Bool) : List TypeRef → List TypeRef → Bool
  | [], [] => true
  | left :: lefts, right :: rights => left.agrees near right && agreesAll near lefts rights
  | _, _ => false

end

mutual

/-- The type as a program writes it. -/
def text : TypeRef → String
  | .named _ path [] => ".".intercalate path
  | .named _ path (first :: rest) =>
      ".".intercalate path ++ "<" ++ first.text ++ textRest rest ++ ">"
  | .array _ element => element.text ++ "[]"
  | .void _ => "void"

/-- The text of the arguments behind the first one. -/
def textRest : List TypeRef → String
  | [] => ""
  | type :: rest => ", " ++ type.text ++ textRest rest

end

end TypeRef

end DataClass
