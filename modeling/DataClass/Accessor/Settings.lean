import DataClass.Vocabulary.Naming
namespace DataClass.Accessor

/-! Settings of the accessor pass. -/

/-- What to do when the name of an accessor is taken by another method. -/
inductive ConflictPolicy where
  /-- Report an error on the field and add neither of its accessors. -/
  | error
  /-- Keep the method that is there and add the accessor that is missing. -/
  | skip
deriving DecidableEq

namespace ConflictPolicy

def name : ConflictPolicy → String
  | .error => "error"
  | .skip => "skip"

/-- The policy with a name, or a message that lists the names. -/
def ofName (name : String) : Except String ConflictPolicy :=
  if name = "error" then .ok .error
  else if name = "skip" then .ok .skip
  else .error ("unknown conflict policy '" ++ name ++ "' (expected 'error' or 'skip')")

end ConflictPolicy

structure Settings where
  /-- The tag that asks for accessors: a bare name or a dotted path. -/
  marker : String
  policy : ConflictPolicy
  /-- Whether the pass claims the marker for itself. -/
  claimsMarker : Bool
  /-- How many rounds may run. -/
  maxRounds : Nat
deriving DecidableEq

namespace Settings

def standard : Settings := ⟨defaultMarker, .error, true, 8⟩

/-- Limit the number of rounds; one round is always allowed. -/
def limitRounds (rounds : Nat) (settings : Settings) : Settings :=
  { settings with maxRounds := max rounds 1 }

end Settings

end DataClass.Accessor
