import DataClass.Layout.Stmt
import DataClass.Program.Basic
import DataClass.Token.Basic
namespace DataClass

/-! The tokens that a program is written with, from left to right. What has a default is left out: a
return type `void`, the visibility of what is not public, and the braces of an `else` around nothing
but another `if`. -/

namespace TokenKind

/-- The tokens of parts, each one behind a comma. -/
def afterCommas (parts : List (List TokenKind)) : List TokenKind :=
  parts.flatMap fun part => .punctuation .comma :: part

/-- The tokens of parts with a comma between two of them. -/
def separated : List (List TokenKind) → List TokenKind
  | [] => []
  | first :: rest => first ++ afterCommas rest

/-- The tokens of path segments, each one behind a point. -/
def afterPoints (segments : List String) : List TokenKind :=
  segments.flatMap fun segment => [.punctuation .dot, .identifier segment]

theorem afterCommas_cons (part : List TokenKind) (parts : List (List TokenKind)) :
    afterCommas (part :: parts) = .punctuation .comma :: (part ++ afterCommas parts) := rfl

theorem afterPoints_cons (segment : String) (segments : List String) :
    afterPoints (segment :: segments) =
      .punctuation .dot :: .identifier segment :: afterPoints segments := rfl

/-- The tokens of a path such as `a.b.C`. -/
def pathKinds : List String → List TokenKind
  | [] => []
  | first :: rest => .identifier first :: afterPoints rest

theorem length_le_separated {part : List TokenKind} {parts : List (List TokenKind)}
    (inside : part ∈ parts) : part.length ≤ (separated parts).length := by
  cases parts with
  | nil => cases inside
  | cons first rest =>
      rcases List.mem_cons.mp inside with rfl | later
      · exact (List.sublist_append_left ..).length_le
      · have behind : part.Sublist (afterCommas rest) :=
          (List.sublist_cons_self ..).trans
            (List.sublist_flatten_of_mem (List.mem_map_of_mem later))
        exact (behind.trans (List.sublist_append_right ..)).length_le

theorem length_le_flatMap {α : Type} (kinds : α → List TokenKind) {value : α} {values : List α}
    (inside : value ∈ values) : (kinds value).length ≤ (values.flatMap kinds).length :=
  (List.sublist_flatten_of_mem (List.mem_map_of_mem inside)).length_le

def parenthesized (parts : List (List TokenKind)) : List TokenKind :=
  .punctuation .leftParen :: (separated parts ++ [.punctuation .rightParen])

def braced (body : List TokenKind) : List TokenKind :=
  .punctuation .leftBrace :: (body ++ [.punctuation .rightBrace])

/-- The tokens of type arguments, where there are any. -/
def angled : List (List TokenKind) → List TokenKind
  | [] => []
  | parts => .operator .lt :: (separated parts ++ [.operator .gt])

theorem angled_of_some {parts : List (List TokenKind)} (some : parts ≠ []) :
    angled parts = .operator .lt :: (separated parts ++ [.operator .gt]) := by
  cases parts with
  | nil => exact absurd rfl some
  | cons part parts => rfl

end TokenKind

open TokenKind

namespace TypeRef

mutual

def kinds : TypeRef → List TokenKind
  | .named _ path arguments => pathKinds path ++ angled (kindsAll arguments)
  | .array _ element => element.kinds ++ [.punctuation .leftBracket, .punctuation .rightBracket]
  | .void _ => [.keyword .voidWord]

def kindsAll : List TypeRef → List (List TokenKind)
  | [] => []
  | type :: rest => type.kinds :: kindsAll rest

end

theorem kindsAll_eq_map (types : List TypeRef) : kindsAll types = types.map kinds := by
  induction types with
  | nil => rfl
  | cons type rest ih => simp [kindsAll, ih]

/-- The tokens of a type behind a colon. -/
def colonKinds : Option TypeRef → List TokenKind
  | none => []
  | some type => .punctuation .colon :: type.kinds

end TypeRef

namespace Expr

mutual

def kinds : Expr → List TokenKind
  | .int _ value => [.int value]
  | .float _ value => [.float value]
  | .string _ value => [.string value]
  | .bool _ value => [.keyword (if value then .trueWord else .falseWord)]
  | .null _ => [.keyword .nullWord]
  | .ident _ name => [.identifier name]
  | .this _ => [.keyword .thisWord]
  | .field _ base name => base.kinds ++ [.punctuation .dot, .identifier name]
  | .call _ callee arguments => callee.kinds ++ parenthesized (kindsAll arguments)
  | .methodCall _ receiver name arguments =>
      receiver.kinds ++ .punctuation .dot :: .identifier name :: parenthesized (kindsAll arguments)
  | .unary _ op operand => .operator op.operator :: operand.kinds
  | .binary _ left op right => left.kinds ++ .operator op.operator :: right.kinds
  | .paren _ inner => .punctuation .leftParen :: (inner.kinds ++ [.punctuation .rightParen])

def kindsAll : List Expr → List (List TokenKind)
  | [] => []
  | expr :: rest => expr.kinds :: kindsAll rest

end

theorem kindsAll_eq_map (exprs : List Expr) : kindsAll exprs = exprs.map kinds := by
  induction exprs with
  | nil => rfl
  | cons expr rest ih => simp [kindsAll, ih]

/-- The tokens of a value behind an equals sign. -/
def equalsKinds : Option Expr → List TokenKind
  | none => []
  | some value => .operator .eq :: value.kinds

def optionKinds : Option Expr → List TokenKind
  | none => []
  | some value => value.kinds

end Expr

namespace Stmt

mutual

def kinds : Stmt → List TokenKind
  | .declare _ name type value =>
      .keyword .letWord :: .identifier name ::
        (TypeRef.colonKinds type ++ (Expr.equalsKinds value ++ [.punctuation .semicolon]))
  | .assign _ target value =>
      target.kinds ++ .operator .eq :: (value.kinds ++ [.punctuation .semicolon])
  | .giveBack _ value =>
      .keyword .returnWord :: (Expr.optionKinds value ++ [.punctuation .semicolon])
  | .choose _ condition thenBody none =>
      .keyword .ifWord :: (condition.kinds ++ braced (bodyKinds thenBody))
  | .choose _ condition thenBody (some elseBody) =>
      .keyword .ifWord :: (condition.kinds ++ (braced (bodyKinds thenBody) ++
        .keyword .elseWord :: elseKinds elseBody))
  | .repeatWhile _ condition body =>
      .keyword .whileWord :: (condition.kinds ++ braced (bodyKinds body))
  | .evaluate _ expr => expr.kinds ++ [.punctuation .semicolon]

def bodyKinds : List Stmt → List TokenKind
  | [] => []
  | stmt :: rest => stmt.kinds ++ bodyKinds rest

/-- The tokens behind an `else`. -/
def elseKinds : List Stmt → List TokenKind
  | [] => braced []
  | [only] => if Layout.isChoice only then only.kinds else braced only.kinds
  | first :: second :: rest => braced (first.kinds ++ (second.kinds ++ bodyKinds rest))

end

theorem bodyKinds_eq_flatMap (body : List Stmt) : bodyKinds body = body.flatMap kinds := by
  induction body with
  | nil => rfl
  | cons stmt rest ih => simp [bodyKinds, ih]

end Stmt

namespace Tag

def kinds (tag : Tag) : List TokenKind := .punctuation .at :: pathKinds tag.path

def kindsAll (tags : List Tag) : List TokenKind := tags.flatMap kinds

theorem kindsAll_cons (tag : Tag) (tags : List Tag) :
    kindsAll (tag :: tags) = .punctuation .at :: (pathKinds tag.path ++ kindsAll tags) := rfl

end Tag

namespace TokenKind

def visibility (isPublic : Bool) : List TokenKind := if isPublic then [.keyword .pubWord] else []

/-- The tokens in front of a declaration. -/
def modifiers (tags : List Tag) (isPublic : Bool) : List TokenKind :=
  Tag.kindsAll tags ++ visibility isPublic

end TokenKind

namespace Param

def kinds (param : Param) : List TokenKind :=
  .identifier param.name :: .punctuation .colon :: param.type.kinds

end Param

namespace TypeRef

/-- The tokens of a return type. -/
def returnKinds (type : TypeRef) : List TokenKind :=
  if type.isVoid then [] else .punctuation .colon :: type.kinds

end TypeRef

namespace Field

def bareKinds (field : Field) : List TokenKind :=
  .identifier field.name ::
    (TypeRef.colonKinds field.type ++ (Expr.equalsKinds field.default ++ [.punctuation .semicolon]))

end Field

namespace Method

def bareKinds (method : Method) : List TokenKind :=
  .identifier method.name ::
    (parenthesized (method.params.map Param.kinds) ++
      (method.returnType.returnKinds ++ braced (Stmt.bodyKinds method.body)))

end Method

namespace Constructor

def bareKinds (constructor : Constructor) : List TokenKind :=
  parenthesized (constructor.params.map Param.kinds) ++ braced (Stmt.bodyKinds constructor.body)

end Constructor

mutual

def Member.kinds : Member → List TokenKind
  | .field _ decl => modifiers decl.tags decl.isPublic ++ decl.bareKinds
  | .method _ decl => modifiers decl.tags decl.isPublic ++ .keyword .fnWord :: decl.bareKinds
  | .constructor _ decl => modifiers decl.tags decl.isPublic ++ .keyword .newWord :: decl.bareKinds
  | .initializer _ body => .keyword .initWord :: braced (Stmt.bodyKinds body)
  | .nested _ decl => decl.kinds

def Class.kinds : Class → List TokenKind
  | ⟨tags, isPublic, name, members⟩ =>
      modifiers tags isPublic ++
        .keyword .classWord :: .identifier name :: braced (Member.kindsAll members)

def Member.kindsAll : List Member → List TokenKind
  | [] => []
  | member :: rest => member.kinds ++ Member.kindsAll rest

end

theorem Member.kindsAll_eq_flatMap (members : List Member) :
    Member.kindsAll members = members.flatMap Member.kinds := by
  induction members with
  | nil => rfl
  | cons member rest ih => simp [Member.kindsAll, ih]

theorem Class.kinds_eq (decl : Class) :
    decl.kinds = modifiers decl.tags decl.isPublic ++
      .keyword .classWord :: .identifier decl.name :: braced (Member.kindsAll decl.members) := by
  cases decl
  rw [kinds]

namespace Declaration

def kinds : Declaration → List TokenKind
  | .importPath _ path => .keyword .importWord :: (pathKinds path ++ [.punctuation .semicolon])
  | .type _ decl => decl.kinds
  | .function _ decl => modifiers decl.tags decl.isPublic ++ .keyword .fnWord :: decl.bareKinds

end Declaration

namespace Program

/-- All tokens that a program is written with, but for the one that marks the end. -/
def kinds (program : Program) : List TokenKind := program.declarations.flatMap Declaration.kinds

end Program

end DataClass
