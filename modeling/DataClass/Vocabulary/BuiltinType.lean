namespace DataClass

/-! Types that the language knows by name. -/

inductive BuiltinType where
  | int | float | bool | string
  | list | map | set | option
deriving DecidableEq

namespace BuiltinType

/-- Every builtin type, in the order of the reference table. -/
def all : List BuiltinType :=
  [.int, .float, .bool, .string, .list, .map, .set, .option]

/-- The spelling under which the reference table lists the type. -/
def canonical : BuiltinType → String
  | .int => "Int"
  | .float => "Float"
  | .bool => "Bool"
  | .string => "String"
  | .list => "List"
  | .map => "Map"
  | .set => "Set"
  | .option => "Option"

/-- Further spellings of the same type. -/
def aliases : BuiltinType → List String
  | .int => ["int", "Long", "long"]
  | .float => ["float", "Double", "double"]
  | .bool => ["bool", "boolean", "Boolean"]
  | .string => ["str"]
  | .map => ["Dict"]
  | .option => ["Optional"]
  | .list | .set => []

/-- The number of type arguments that the type takes. -/
def arity : BuiltinType → Nat
  | .int | .float | .bool | .string => 0
  | .list | .set | .option => 1
  | .map => 2

/-- The path of the type in the target language, segment by segment. -/
def targetPath : BuiltinType → List String
  | .int => ["i64"]
  | .float => ["f64"]
  | .bool => ["bool"]
  | .string => ["String"]
  | .list => ["Vec"]
  | .map => ["std", "collections", "HashMap"]
  | .set => ["std", "collections", "HashSet"]
  | .option => ["Option"]

/-- Whether a value can be read out of its place without a copy being asked for. -/
def isCopy : BuiltinType → Bool
  | .int | .float | .bool => true
  | _ => false

/-- The builtin type with a spelling. -/
def ofSpelling? (spelling : String) : Option BuiltinType :=
  all.find? fun type => type.canonical == spelling || type.aliases.contains spelling

end BuiltinType

end DataClass
