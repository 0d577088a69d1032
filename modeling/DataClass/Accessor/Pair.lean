import DataClass.Diagnostic.Basic
import DataClass.Program.Class
import DataClass.Vocabulary.Naming
namespace DataClass.Accessor

/-! The two accessors of a field `name: T`:

    pub fn getName(): T { return this.name; }
    pub fn setName(name: T) { this.name = name; }

Every new part has the range of the field.
-/

/-- What stands in the way of an accessor. -/
inductive Obstacle where
  /-- Another method of that name that was written by hand. -/
  | existingMethod
  /-- An accessor of another field, planned in the same round. -/
  | plannedFor (field : String)
deriving DecidableEq

def Obstacle.text : Obstacle → String
  | .existingMethod => "a different method with that name already exists"
  | .plannedFor field => "the same name is already generated for field '" ++ field ++ "'"

/-- Why a field does not get its accessors. -/
inductive FieldFault where
  | missingType (owner field : String)
  | voidType (owner field : String)
  | invalidName (owner field : String)
  | conflict (owner field accessor : String) (obstacle : Obstacle)
deriving DecidableEq

namespace FieldFault

def message : FieldFault → String
  | .missingType owner field => "Field '" ++ field ++ "' of '" ++ owner ++ "' has no declared type"
  | .voidType owner field => "Field '" ++ field ++ "' of '" ++ owner ++ "' is declared 'void'"
  | .invalidName owner field =>
      "Field name '" ++ field ++ "' of '" ++ owner ++ "' is not a valid identifier"
  | .conflict owner field accessor obstacle =>
      "Cannot synthesize '" ++ accessor ++ "' for field '" ++ field ++ "' of '" ++ owner ++ "': " ++
        obstacle.text

def hints : FieldFault → List String
  | .missingType _ field => ["Declare the field type, e.g. '" ++ field ++ ": Int;'"]
  | .voidType _ _ => ["Fields need a value type"]
  | .invalidName _ _ => []
  | .conflict _ _ _ _ =>
      ["Rename or remove the existing member, or run with '--on-conflict skip'"]

def toDiagnostic (span : Span) (fault : FieldFault) : Diagnostic :=
  ⟨.synthesisError, fault.message, span, [], fault.hints⟩

end FieldFault

structure Pair where
  getter : Method
  setter : Method

namespace Pair

def methods (pair : Pair) : List Method := [pair.getter, pair.setter]

end Pair

/-- The place `this.name`. -/
def thisField (name : String) (span : Span) : Expr := .field span (.this span) name

def getter (name : String) (type : TypeRef) (span : Span) : Method :=
  ⟨[], true, accessorName .getter name, [], type, [.giveBack span (some (thisField name span))]⟩

def setter (name : String) (type : TypeRef) (span : Span) : Method :=
  ⟨[], true, accessorName .setter name, [⟨span, name, type⟩], .void span,
    [.assign span (thisField name span) (.ident span name)]⟩

/-- The accessors of a field. The name is looked at first, then whether there is a type, then
whether it is one that a value can have. -/
def synthesize (owner : String) (field : Field) (span : Span) : Except FieldFault Pair :=
  if isIdentifier field.name then
    match field.type with
    | none => .error (.missingType owner field.name)
    | some type =>
        if type.isVoid then .error (.voidType owner field.name)
        else .ok ⟨getter field.name type span, setter field.name type span⟩
  else .error (.invalidName owner field.name)

end DataClass.Accessor
