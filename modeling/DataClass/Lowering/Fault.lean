import DataClass.Number.Decimal
import DataClass.Vocabulary.BuiltinType
namespace DataClass.Lowering

/-! What can keep a program from being lowered. -/

inductive LoweringFault where
  | duplicateClass (name : String)
  | unknownClass (name : String)
  | untypedField (field owner : String)
  | severalConstructors (owner : String)
  | valueFromConstructor
  | thisOutsideClass
  | wrongArity (type : BuiltinType) (found : Nat)
  | infiniteLiteral (value : Binary64)
  | noConstructor (name : String) (arguments : Nat)
  | invalidIdentifier (name : String)
deriving DecidableEq

namespace LoweringFault

/-- The construct that cannot be lowered. A bad name has no such words. -/
def construct? : LoweringFault → Option String
  | .duplicateClass name => some ("class name '" ++ name ++ "' is declared more than once")
  | .unknownClass name => some ("class '" ++ name ++ "' was not collected before emission")
  | .untypedField field owner =>
      some ("field '" ++ field ++ "' of '" ++ owner ++ "' has no declared type")
  | .severalConstructors owner =>
      some ("class '" ++ owner ++ "' declares more than one constructor")
  | .valueFromConstructor => some "constructors cannot return a value"
  | .thisOutsideClass => some "'this' used outside of a class body"
  | .wrongArity type found =>
      some ("type '" ++ type.canonical ++ "' expects " ++ toString type.arity ++
        " type argument(s), found " ++ toString found)
  | .infiniteLiteral value =>
      some ("non-finite float literal " ++ String.ofList value.plainText)
  | .noConstructor name arguments =>
      some ("'" ++ name ++ "' has no constructor but is called with " ++ toString arguments ++
        " argument(s)")
  | .invalidIdentifier _ => none

def message : LoweringFault → String
  | .invalidIdentifier name => "'" ++ name ++ "' cannot be used as a Rust identifier"
  | fault => "unsupported: " ++ fault.construct?.getD ""

end LoweringFault

/-- A lowering step, which may fail. -/
abbrev Lowered (α : Type) := Except LoweringFault α

/-- Steps one after the other give a result where each of them does. -/
theorem Lowered.bind_eq_ok {α β : Type} {first : Lowered α} {next : α → Lowered β} {result : β} :
    (first >>= next) = .ok result ↔ ∃ value, first = .ok value ∧ next value = .ok result := by
  cases first with
  | error fault => exact ⟨nofun, fun ⟨_, done, _⟩ => by cases done⟩
  | ok value => exact ⟨fun done => ⟨value, rfl, done⟩, fun ⟨_, same, done⟩ => by cases same; exact done⟩

end DataClass.Lowering
