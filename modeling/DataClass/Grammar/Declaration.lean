import DataClass.Grammar.Stmt
import DataClass.Program.Basic
import DataClass.Token.Scan
namespace DataClass.Grammar

/-! Reading members, classes and whole programs. -/

/-- What stands in front of a declaration, and where it begins. -/
structure Modifiers where
  tags : List Tag
  isPublic : Bool
  start : Nat

namespace Reader

def tagNotAllowed (place : String) (span : Span) : Diagnostic :=
  .syntaxFault ("Annotations are not allowed on " ++ place) span

/-- Fail at the first tag, if there is one. -/
def withoutTags (place : String) (modifiers : Modifiers) : Reader Unit :=
  match modifiers.tags with
  | [] => return ()
  | tag :: _ => fail (tagNotAllowed place tag.span)

def tags : Nat → Reader (List Tag)
  | 0 => return []
  | fuel + 1 => do
      let first ← current
      if first.kind = .punctuation .at then
        advance
        let path ← dottedPath
        let span ← spanFrom first.span.start
        let later ← tags fuel
        return ⟨span, path⟩ :: later
      else return []

/-- Read tags and then at most one of `pub` and `priv`. -/
def modifiers : Reader Modifiers := do
  let first ← current
  let tags ← tags (← remaining)
  if ← accept (.keyword .pubWord) then return ⟨tags, true, first.span.start⟩
  else
    let _ ← accept (.keyword .privWord)
    return ⟨tags, false, first.span.start⟩

def param : Reader Param := do
  let first ← current
  let name ← identifier
  expect (.punctuation .colon) "':' after parameter name"
  let type ← typeRef
  return ⟨first.span.merge type.span, name, type⟩

def params : Reader (List Param) :=
  parenthesized "'(' before parameters" "')' after parameters" param

/-- Read a method behind its `fn`. Without a return type it returns nothing. -/
def method (modifiers : Modifiers) : Reader Method := do
  let name ← identifier
  let params ← params
  let written ← typeAfterColon
  let returnType := written.getD (.void (← previousSpan))
  let body ← block
  return ⟨modifiers.tags, modifiers.isPublic, name, params, returnType, body⟩

/-- Read a constructor behind its `new`. -/
def constructor (modifiers : Modifiers) : Reader Constructor := do
  let params ← params
  let body ← block
  return ⟨modifiers.tags, modifiers.isPublic, params, body⟩

/-- Read a field from its name on. -/
def field (modifiers : Modifiers) : Reader Field := do
  let name ← identifier
  let type ← typeAfterColon
  let default ← expressionAfterEquals
  expect (.punctuation .semicolon) "';' after field"
  return ⟨modifiers.tags, modifiers.isPublic, name, type, default⟩

/-- Read a class behind its `class`, with members read by `member`. -/
def classWith (member : Reader Member) (modifiers : Modifiers) : Reader Class := do
  let name ← identifier
  let members ←
    braced .members "'\x7b' after class name" "'\x7d' to close class body" member
  return ⟨modifiers.tags, modifiers.isPublic, name, members⟩

/-- Read a member whose own members, if it is a class, are read by `inner`. -/
def memberWith (inner : Reader Member) : Reader Member := do
  let modifiers ← modifiers
  let start := modifiers.start
  match ← currentKind with
  | .keyword .fnWord =>
      advance
      let decl ← method modifiers
      return .method (← spanFrom start) decl
  | .keyword .newWord =>
      advance
      let decl ← constructor modifiers
      return .constructor (← spanFrom start) decl
  | .keyword .initWord =>
      withoutTags "initializers" modifiers
      advance
      let body ← block
      return .initializer (← spanFrom start) body
  | .keyword .classWord =>
      advance
      let decl ← classWith inner modifiers
      return .nested (← spanFrom start) decl
  | .identifier _ =>
      let decl ← field modifiers
      return .field (← spanFrom start) decl
  | _ => failExpected "class member"

/-- Read a member with classes inside of classes up to a depth. -/
def memberAt : Nat → Reader Member
  | 0 => failExpected "class member"
  | depth + 1 => memberWith (memberAt depth)

/-- Read a member. Classes cannot be nested deeper than there are tokens. -/
def member : Reader Member := do memberAt ((← remaining) + 1)

/-- Read an import, a class or a function. -/
def declaration : Reader Declaration := do
  let modifiers ← modifiers
  let start := modifiers.start
  match ← currentKind with
  | .keyword .importWord =>
      withoutTags "imports" modifiers
      advance
      let path ← dottedPath
      expect (.punctuation .semicolon) "';' after import"
      return .importPath (← spanFrom start) path
  | .keyword .classWord =>
      advance
      let decl ← classWith member modifiers
      return .type (← spanFrom start) decl
  | .keyword .fnWord =>
      advance
      let decl ← method modifiers
      return .function (← spanFrom start) decl
  | _ => failExpected "declaration ('class', 'fn' or 'import')"

def declarations : Reader (List Declaration) := do
  parts .declarations declaration (← remaining)

end Reader

end Grammar

namespace Program

open Grammar in
/-- Read a program, or report all of its faults. The tokens behind the first end do not count. -/
def ofTokens (tokens : List Token) : Except (List Diagnostic) Program :=
  match Reader.declarations (.ofTokens tokens) with
  | .value declarations ⟨_, _, []⟩ => .ok ⟨declarations⟩
  | .value _ next => .error next.reported.reverse
  | .failure fault next => .error (fault :: next.reported).reverse

/-- Read the text of a program. Faults of its tokens are reported before all others, and alone. -/
def ofSource (source : String) : Except (List Diagnostic) Program := do
  ofTokens (← Token.scan source)

end Program

end DataClass
