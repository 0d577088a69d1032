import DataClass.Proofs.Grammar.Yield
import DataClass.Proofs.Program.Spelled
import DataClass.Proofs.Token.Spelling
namespace DataClass

/-! The tokens of the program that a written program is read as. -/

open TokenKind

namespace TokenKind

theorem written_afterCommas (parts : List (List TokenKind)) :
    (afterCommas parts).map written = afterCommas (parts.map (·.map written)) := by
  induction parts with
  | nil => rfl
  | cons part parts ih => simp [afterCommas_cons, ih, written]

theorem written_separated (parts : List (List TokenKind)) :
    (separated parts).map written = separated (parts.map (·.map written)) := by
  cases parts with
  | nil => rfl
  | cons part parts => simp [separated, written_afterCommas]

theorem written_parenthesized (parts : List (List TokenKind)) :
    (parenthesized parts).map written = parenthesized (parts.map (·.map written)) := by
  simp [parenthesized, written_separated, written]

theorem written_braced (body : List TokenKind) :
    (braced body).map written = braced (body.map written) := by
  simp [braced, written]

theorem written_pathKinds (path : List String) : (pathKinds path).map written = pathKinds path := by
  have points (segments : List String) :
      (afterPoints segments).map written = afterPoints segments := by
    induction segments with
    | nil => rfl
    | cons segment segments ih => simp [afterPoints_cons, ih, written]
  cases path with
  | nil => rfl
  | cons first rest => simp [pathKinds, points, written]

end TokenKind

namespace TypeRef

mutual

theorem kinds_erase : (type : TypeRef) → type.erase.kinds = type.kinds
  | .named _ path arguments => by
      rw [erase_named, kinds, kinds, ← kindsAll_erase arguments]
  | .array _ element => by
      rw [erase_array, kinds, kinds, kinds_erase element]
  | .void _ => rfl

theorem kindsAll_erase : (types : List TypeRef) → kindsAll (types.map erase) = kindsAll types
  | [] => rfl
  | type :: rest => by
      rw [List.map_cons, kindsAll, kindsAll, kinds_erase type, kindsAll_erase rest]

end

mutual

theorem kinds_written : (type : TypeRef) → type.kinds.map written = type.kinds
  | .named _ path [] => by
      simp [kinds, kindsAll, angled, written_pathKinds]
  | .named _ path (first :: rest) => by
      have each := kindsAll_written (first :: rest)
      rw [kindsAll] at each
      simp [kinds, kindsAll, angled_of_some, written_pathKinds, written_separated, each, written]
  | .array _ element => by
      simp [kinds, kinds_written element, written]
  | .void _ => rfl

theorem kindsAll_written : (types : List TypeRef) →
    (kindsAll types).map (·.map written) = kindsAll types
  | [] => rfl
  | type :: rest => by
      rw [kindsAll, List.map_cons, kinds_written type, kindsAll_written rest]

end

theorem colonKinds_erase (type : Option TypeRef) :
    colonKinds (type.map erase) = (colonKinds type).map written := by
  cases type <;> simp [colonKinds, kinds_erase, kinds_written, written]

end TypeRef

namespace Expr

mutual

theorem kinds_spelled : (expr : Expr) → expr.spelled.kinds = expr.kinds.map written
  | .int _ _ | .string _ _ | .bool _ _ | .null _ | .ident _ _ | .this _ => by
      simp [spelled, kinds, written]
  | .float _ value => by
      by_cases finite : value.isFinite = true <;> simp [spelled, kinds, written, finite]
  | .field _ base _ => by
      simp [spelled, kinds, kinds_spelled base, written]
  | .call _ callee arguments => by
      simp [spelled, kinds, kinds_spelled callee, kindsAll_spelled arguments, written_parenthesized]
  | .methodCall _ receiver _ arguments => by
      simp [spelled, kinds, kinds_spelled receiver, kindsAll_spelled arguments,
        written_parenthesized, written]
  | .unary _ _ operand => by
      simp [spelled, kinds, kinds_spelled operand, written]
  | .binary _ left _ right => by
      simp [spelled, kinds, kinds_spelled left, kinds_spelled right, written]
  | .paren _ inner => by
      simp [spelled, kinds, kinds_spelled inner, written]

theorem kindsAll_spelled : (exprs : List Expr) →
    kindsAll (spelledAll exprs) = (kindsAll exprs).map (·.map written)
  | [] => rfl
  | expr :: rest => by
      rw [spelledAll, kindsAll, kindsAll, List.map_cons, kinds_spelled expr, kindsAll_spelled rest]

end

theorem equalsKinds_spelled (value : Option Expr) :
    equalsKinds (value.map spelled) = (equalsKinds value).map written := by
  cases value with
  | none => rfl
  | some value => simp [equalsKinds, kinds_spelled, written]

theorem optionKinds_spelled (value : Option Expr) :
    optionKinds (value.map spelled) = (optionKinds value).map written := by
  cases value with
  | none => rfl
  | some value => simp [optionKinds, kinds_spelled]

end Expr

namespace Stmt

theorem isChoice_spelled (stmt : Stmt) : Layout.isChoice stmt.spelled = Layout.isChoice stmt := by
  cases stmt with
  | choose span condition thenBody elseBody => cases elseBody <;> simp [spelled, Layout.isChoice]
  | _ => simp [spelled, Layout.isChoice]

mutual

theorem kinds_spelled : (stmt : Stmt) → stmt.spelled.kinds = stmt.kinds.map written
  | .declare _ _ type value => by
      simp [spelled, kinds, TypeRef.colonKinds_erase, Expr.equalsKinds_spelled, written]
  | .assign _ target value => by
      simp [spelled, kinds, Expr.kinds_spelled, written]
  | .giveBack _ value => by
      simp [spelled, kinds, Expr.optionKinds_spelled, written]
  | .choose _ condition thenBody none => by
      simp [spelled, kinds, Expr.kinds_spelled, bodyKinds_spelled thenBody, written_braced, written]
  | .choose _ condition thenBody (some elseBody) => by
      simp [spelled, kinds, Expr.kinds_spelled, bodyKinds_spelled thenBody, written_braced,
        elseKinds_spelled elseBody, written]
  | .repeatWhile _ condition body => by
      simp [spelled, kinds, Expr.kinds_spelled, bodyKinds_spelled body, written_braced, written]
  | .evaluate _ expr => by
      simp [spelled, kinds, Expr.kinds_spelled, written]

theorem bodyKinds_spelled : (body : List Stmt) →
    bodyKinds (spelledAll body) = (bodyKinds body).map written
  | [] => rfl
  | stmt :: rest => by
      simp [spelledAll, bodyKinds, kinds_spelled stmt, bodyKinds_spelled rest]

theorem elseKinds_spelled : (body : List Stmt) →
    elseKinds (spelledAll body) = (elseKinds body).map written
  | [] => rfl
  | [only] => by
      simp only [spelledAll, elseKinds, isChoice_spelled, kinds_spelled only]
      split
      · rfl
      · rw [written_braced]
  | first :: second :: rest => by
      simp [spelledAll, elseKinds, kinds_spelled first, kinds_spelled second,
        bodyKinds_spelled rest, written_braced]

end

end Stmt

namespace Tag

theorem kindsAll_erase (tags : List Tag) :
    kindsAll (tags.map erase) = (kindsAll tags).map written := by
  induction tags with
  | nil => rfl
  | cons tag tags ih =>
      rw [List.map_cons, kindsAll_cons, kindsAll_cons, ih]
      simp [erase, mapSpans, written_pathKinds, written]

end Tag

namespace TokenKind

theorem modifiers_erase (tags : List Tag) (isPublic : Bool) :
    modifiers (tags.map Tag.erase) isPublic = (modifiers tags isPublic).map written := by
  cases isPublic <;> simp [modifiers, visibility, Tag.kindsAll_erase, written]

end TokenKind

namespace Param

theorem kinds_erase (param : Param) : param.erase.kinds = param.kinds.map written := by
  change .identifier param.name :: .punctuation .colon :: param.type.erase.kinds = _
  rw [TypeRef.kinds_erase, kinds, List.map_cons, List.map_cons, TypeRef.kinds_written]
  rfl

theorem map_kinds_erase (params : List Param) :
    (params.map erase).map kinds = (params.map kinds).map (·.map written) := by
  simp [kinds_erase]

end Param

namespace TypeRef

theorem returnKinds_erase (type : TypeRef) :
    type.erase.returnKinds = type.returnKinds.map written := by
  rw [returnKinds, returnKinds, isVoid_erase]
  split
  · rfl
  · rw [kinds_erase, List.map_cons, kinds_written]
    rfl

end TypeRef

namespace Field

theorem bareKinds_spelled (field : Field) :
    field.spelled.bareKinds = field.bareKinds.map written := by
  simp [spelled, bareKinds, TypeRef.colonKinds_erase, Expr.equalsKinds_spelled, written]

end Field

namespace Method

theorem bareKinds_spelled (method : Method) :
    method.spelled.bareKinds = method.bareKinds.map written := by
  simp only [spelled, bareKinds, Param.map_kinds_erase, TypeRef.returnKinds_erase,
    ← Stmt.spelledAll_eq_map, Stmt.bodyKinds_spelled]
  simp [written_parenthesized, written_braced, written]

end Method

namespace Constructor

theorem bareKinds_spelled (constructor : Constructor) :
    constructor.spelled.bareKinds = constructor.bareKinds.map written := by
  simp only [spelled, bareKinds, Param.map_kinds_erase, ← Stmt.spelledAll_eq_map,
    Stmt.bodyKinds_spelled]
  simp [written_parenthesized, written_braced]

end Constructor

mutual

theorem Member.kinds_spelled : (member : Member) →
    member.spelled.kinds = member.kinds.map written
  | .field _ decl => by
      rw [Member.spelled, Member.kinds, Member.kinds, List.map_append, ← decl.bareKinds_spelled,
        ← modifiers_erase]
      rfl
  | .method _ decl => by
      rw [Member.spelled, Member.kinds, Member.kinds, List.map_append, List.map_cons,
        ← decl.bareKinds_spelled, ← modifiers_erase]
      rfl
  | .constructor _ decl => by
      rw [Member.spelled, Member.kinds, Member.kinds, List.map_append, List.map_cons,
        ← decl.bareKinds_spelled, ← modifiers_erase]
      rfl
  | .initializer _ body => by
      rw [Member.spelled, Member.kinds, Member.kinds, ← Stmt.spelledAll_eq_map,
        Stmt.bodyKinds_spelled, ← written_braced]
      rfl
  | .nested _ decl => by
      rw [Member.spelled, Member.kinds, Member.kinds, Class.kinds_spelled decl]

theorem Class.kinds_spelled : (decl : Class) → decl.spelled.kinds = decl.kinds.map written
  | ⟨tags, isPublic, name, members⟩ => by
      rw [Class.spelled, Class.kinds, Class.kinds, modifiers_erase,
        Member.kindsAll_spelled members]
      simp [written_braced, written]

theorem Member.kindsAll_spelled : (members : List Member) →
    Member.kindsAll (Member.spelledAll members) = (Member.kindsAll members).map written
  | [] => rfl
  | member :: rest => by
      rw [Member.spelledAll, Member.kindsAll, Member.kindsAll, List.map_append,
        Member.kinds_spelled member, Member.kindsAll_spelled rest]

end

namespace Declaration

theorem kinds_spelled (declaration : Declaration) :
    declaration.spelled.kinds = declaration.kinds.map written := by
  cases declaration with
  | importPath span path => simp [spelled, kinds, written_pathKinds, written]
  | type span decl => exact decl.kinds_spelled
  | function span decl =>
      rw [spelled, kinds, kinds, List.map_append, List.map_cons, ← decl.bareKinds_spelled,
        ← modifiers_erase]
      rfl

end Declaration

namespace Program

/-- The tokens that are read where a program has been written. -/
theorem kinds_spelled (program : Program) :
    program.spelled.kinds = program.kinds.map written := by
  simp [spelled, kinds, List.flatMap_map, List.map_flatMap, Declaration.kinds_spelled]

end Program

end DataClass
