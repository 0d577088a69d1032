import DataClass.Lowering.Fault
import DataClass.Lowering.Token
import DataClass.Program.Expr
import DataClass.Program.TypeRef
import DataClass.Vocabulary.Naming
import DataClass.Vocabulary.TargetWord
namespace DataClass.Lowering

/-! Lowering of identifiers and types. -/

/-- The spelling of an identifier in the target language. Reserved words get the raw mark in front,
and those that cannot be raw an underscore behind them. -/
def identifierSpelling (name : String) : String :=
  if TargetWord.isReserved name then
    if TargetWord.canBeRaw name then "r#" ++ name else name ++ "_"
  else name

def identifier (name : String) : Lowered TargetToken :=
  if name == "_" || !isIdentifier name then .error (.invalidIdentifier name)
  else .ok (.word (identifierSpelling name))

def identifiers : List String → Lowered (List TargetToken)
  | [] => return []
  | name :: rest => do
      let first ← identifier name
      let later ← identifiers rest
      return first :: later

/-- The builtin type that a path names. Only a path of one segment can. -/
def builtin? : List String → Option BuiltinType
  | [name] => BuiltinType.ofSpelling? name
  | _ => none

/-- The path of a named type with a number of arguments. -/
def typePath (path : List String) (arguments : Nat) : Lowered Tokens :=
  match builtin? path with
  | some type =>
      if type.arity = arguments then return Tokens.path (type.targetPath.map .word)
      else throw (.wrongArity type arguments)
  | none => do return Tokens.path (← identifiers path)

def withArguments (path : Tokens) (arguments : List Tokens) : Tokens :=
  if arguments.isEmpty then path
  else path ++ Tokens.mark "<" ++ Tokens.commaSeparated arguments ++ Tokens.mark ">"

mutual

def lowerType : TypeRef → Lowered Tokens
  | .void _ => return Tokens.inParens []
  | .array _ element => do
      let element ← lowerType element
      return Tokens.word "Vec" ++ Tokens.mark "<" ++ element ++ Tokens.mark ">"
  | .named _ path arguments => do
      let arguments ← lowerTypes arguments
      let path ← typePath path arguments.length
      return withArguments path arguments

def lowerTypes : List TypeRef → Lowered (List Tokens)
  | [] => return []
  | type :: rest => do
      let first ← lowerType type
      let later ← lowerTypes rest
      return first :: later

end

/-- The builtin type that a type reference without arguments names. -/
def simpleBuiltin? : TypeRef → Option BuiltinType
  | .named _ path [] => builtin? path
  | _ => none

/-- Whether values of the type are read without a copy being asked for. -/
def isCopyType (type : TypeRef) : Bool :=
  match simpleBuiltin? type with
  | some builtin => builtin.isCopy
  | none => false

def isStringType (type : TypeRef) : Bool := simpleBuiltin? type == some .string

def builtinRef (type : BuiltinType) : TypeRef := .named .origin [type.canonical] []

/-- The type of a field without a declared type, if its default is a literal that tells it. -/
def inferredType? : Expr → Option TypeRef
  | .int _ _ => some (builtinRef .int)
  | .float _ _ => some (builtinRef .float)
  | .bool _ _ => some (builtinRef .bool)
  | .string _ _ => some (builtinRef .string)
  | _ => none

end DataClass.Lowering
