import DataClass.Grammar.Cursor
import DataClass.Program.TypeRef
namespace DataClass.Grammar.Reader

/-! Reading type references: `void`, or a path with optional type arguments and any number of
array marks behind it. -/

/-- Read the array marks behind a type that began at `start`. -/
def arrayMarks (start : Nat) : Nat → TypeRef → Reader TypeRef
  | 0, type => return type
  | fuel + 1, type => do
      if ← accept (.punctuation .leftBracket) then
        expect (.punctuation .rightBracket) "']' in array type"
        arrayMarks start fuel (.array (← spanFrom start) type)
      else return type

/-- Read type arguments, if there are any. -/
def typeArguments (inner : Reader TypeRef) : Reader (List TypeRef) := do
  if ← accept (.operator .lt) then
    let arguments ← commaSeparated inner
    expect (.operator .gt) "'>' to close type arguments"
    return arguments
  else return []

/-- Read a type reference whose arguments are read by `inner`. -/
def typeRefWith (inner : Reader TypeRef) : Reader TypeRef := do
  let first ← current
  if first.kind = .keyword .voidWord then
    advance
    return .void first.span
  else
    let path ← dottedPath
    let arguments ← typeArguments inner
    let type := TypeRef.named (← spanFrom first.span.start) path arguments
    arrayMarks first.span.start (← remaining) type

/-- Read a type reference with arguments inside of arguments up to a depth. -/
def typeRefAt : Nat → Reader TypeRef
  | 0 => failExpected "identifier"
  | depth + 1 => typeRefWith (typeRefAt depth)

/-- Read a type reference. Arguments cannot be nested deeper than there are tokens. -/
def typeRef : Reader TypeRef := do typeRefAt ((← remaining) + 1)

/-- Read a type behind a colon, if there is a colon. -/
def typeAfterColon : Reader (Option TypeRef) := do
  if ← accept (.punctuation .colon) then
    let type ← typeRef
    return some type
  else return none

end DataClass.Grammar.Reader
