import DataClass.Proofs.Program.Parts
namespace DataClass

/-! The literals of a program. Each of them is one token, and from left to right they are the literals
among the tokens that the program is written with. -/

namespace TokenKind

def isLiteral : TokenKind → Bool
  | .int _ | .float _ | .string _ => true
  | .keyword .trueWord | .keyword .falseWord | .keyword .nullWord => true
  | _ => false

/-- The literals among tokens. -/
def literals (kinds : List TokenKind) : List TokenKind := kinds.filter isLiteral

variable {kind : TokenKind} {kinds : List TokenKind}

@[simp] theorem literals_nil : literals [] = [] := rfl

@[simp] theorem literals_append (first second : List TokenKind) :
    literals (first ++ second) = literals first ++ literals second := List.filter_append ..

@[simp] theorem literals_identifier (name : String) :
    literals (.identifier name :: kinds) = literals kinds := rfl

@[simp] theorem literals_punctuation (mark : Punctuation) :
    literals (.punctuation mark :: kinds) = literals kinds := rfl

@[simp] theorem literals_operator (sign : Operator) :
    literals (.operator sign :: kinds) = literals kinds := rfl

theorem literals_keyword (word : Keyword) (other : isLiteral (.keyword word) = false) :
    literals (.keyword word :: kinds) = literals kinds := by
  simp [literals, other]

@[simp] theorem literals_separated (parts : List (List TokenKind)) :
    literals (separated parts) = parts.flatMap literals := by
  have behind (parts : List (List TokenKind)) :
      literals (afterCommas parts) = parts.flatMap literals := by
    induction parts with
    | nil => rfl
    | cons part parts ih => simp [afterCommas_cons, ih]
  cases parts with
  | nil => rfl
  | cons first rest => simp [separated, behind]

@[simp] theorem literals_parenthesized (parts : List (List TokenKind)) :
    literals (parenthesized parts) = parts.flatMap literals := by
  simp [parenthesized]

@[simp] theorem literals_braced (body : List TokenKind) :
    literals (braced body) = literals body := by
  simp [braced]

/-- A path is made of names. -/
@[simp] theorem literals_pathKinds (path : List String) : literals (pathKinds path) = [] := by
  have behind (segments : List String) : literals (afterPoints segments) = [] := by
    induction segments with
    | nil => rfl
    | cons segment segments ih => simp [afterPoints_cons, ih]
  cases path with
  | nil => rfl
  | cons first rest => simp [pathKinds, behind]

/-- An infinite number is written as a name. -/
theorem written_of_infinite (infinite : kind.isFinite = false) : kind.written = .identifier "inf" := by
  cases kind with
  | float value => exact if_neg (Bool.eq_false_iff.mp infinite)
  | _ => cases infinite

/-- What can be read back is kept, and nothing else is a literal any longer. -/
theorem literals_map_written (kinds : List TokenKind) :
    literals (kinds.map written) = (literals kinds).filter isFinite := by
  induction kinds with
  | nil => rfl
  | cons kind kinds ih =>
      cases finite : kind.isFinite with
      | true =>
          cases literal : kind.isLiteral <;>
            simp_all [literals, written_of_isFinite finite]
      | false =>
          have literal : kind.isLiteral = true := by
            cases kind with
            | float value => rfl
            | _ => cases finite
          rw [List.map_cons, written_of_infinite finite, literals_identifier, ih, literals, literals,
            List.filter_cons_of_pos literal, List.filter_cons_of_neg (by simp [finite])]

end TokenKind

open TokenKind

namespace TypeRef

mutual

/-- A type is written without a literal. -/
@[simp] theorem literals_kinds : (type : TypeRef) → literals type.kinds = []
  | .named _ path arguments => by
      have each := literals_kindsAll arguments
      cases given : kindsAll arguments with
      | nil => simp [kinds, given, angled]
      | cons first rest => simpa [kinds, given, angled] using each
  | .array _ element => by simp [kinds, element.literals_kinds]
  | .void _ => rfl

theorem literals_kindsAll : (types : List TypeRef) → (kindsAll types).flatMap literals = []
  | [] => rfl
  | type :: rest => by simp [kindsAll, type.literals_kinds, literals_kindsAll rest]

end

@[simp] theorem literals_colonKinds (type : Option TypeRef) : literals (colonKinds type) = [] := by
  cases type <;> simp [colonKinds]

@[simp] theorem literals_returnKinds (type : TypeRef) : literals type.returnKinds = [] := by
  unfold returnKinds
  split <;> simp

end TypeRef

namespace Expr

/-- The token of a literal. -/
def literal? : Expr → Option TokenKind
  | .int _ value => some (.int value)
  | .float _ value => some (.float value)
  | .string _ value => some (.string value)
  | .bool _ value => some (.keyword (if value then .trueWord else .falseWord))
  | .null _ => some (.keyword .nullWord)
  | _ => none

theorem kinds_of_literal {expr : Expr} {kind : TokenKind} (literal : expr.literal? = some kind) :
    expr.kinds = [kind] := by
  cases expr <;> cases literal <;> rfl

mutual

theorem literals_kinds : (expr : Expr) → literals expr.kinds = expr.parts.filterMap literal?
  | .int _ _ | .float _ _ | .string _ _ | .null _ | .ident _ _ | .this _ => rfl
  | .bool _ value => by cases value <;> rfl
  | .field _ base _ => by simp [kinds, parts, literal?, List.filterMap_cons, base.literals_kinds]
  | .call _ callee arguments => by
      simp [kinds, parts, literal?, List.filterMap_cons, callee.literals_kinds,
        literals_kindsAll arguments]
  | .methodCall _ receiver _ arguments => by
      simp [kinds, parts, literal?, List.filterMap_cons, receiver.literals_kinds,
        literals_kindsAll arguments]
  | .unary _ _ operand => by simp [kinds, parts, literal?, List.filterMap_cons, operand.literals_kinds]
  | .binary _ left _ right => by
      simp [kinds, parts, literal?, List.filterMap_cons, left.literals_kinds, right.literals_kinds]
  | .paren _ inner => by simp [kinds, parts, literal?, List.filterMap_cons, inner.literals_kinds]

theorem literals_kindsAll : (exprs : List Expr) →
    (kindsAll exprs).flatMap literals = (partsAll exprs).filterMap literal?
  | [] => rfl
  | expr :: rest => by
      simp [kindsAll, partsAll, expr.literals_kinds, literals_kindsAll rest]

end

@[simp] theorem literals_optionKinds (value : Option Expr) :
    literals (optionKinds value) = (optionParts value).filterMap literal? := by
  cases value <;> simp [optionKinds, optionParts, literals_kinds]

@[simp] theorem literals_equalsKinds (value : Option Expr) :
    literals (equalsKinds value) = (optionParts value).filterMap literal? := by
  cases value <;> simp [equalsKinds, optionParts, literals_kinds]

end Expr

namespace Stmt

theorem literals_elseKinds (body : List Stmt) :
    literals (elseKinds body) = literals (bodyKinds body) := by
  rcases body with _ | ⟨first, _ | ⟨second, rest⟩⟩
  · simp [elseKinds, bodyKinds]
  · rw [elseKinds]
    split <;> simp [bodyKinds]
  · simp [elseKinds, bodyKinds]

mutual

theorem literals_kinds : (stmt : Stmt) → literals stmt.kinds = stmt.exprs.filterMap Expr.literal?
  | .declare _ _ _ value => by simp [kinds, exprs, literals_keyword .letWord rfl]
  | .assign _ target value => by simp [kinds, exprs, Expr.literals_kinds]
  | .giveBack _ value => by simp [kinds, exprs, literals_keyword .returnWord rfl]
  | .choose _ condition thenBody none => by
      simp [kinds, exprs, literals_keyword .ifWord rfl, Expr.literals_kinds,
        literals_bodyKinds thenBody]
  | .choose _ condition thenBody (some elseBody) => by
      simp [kinds, exprs, literals_keyword .ifWord rfl, literals_keyword .elseWord rfl,
        Expr.literals_kinds, literals_elseKinds, literals_bodyKinds thenBody,
        literals_bodyKinds elseBody]
  | .repeatWhile _ condition body => by
      simp [kinds, exprs, literals_keyword .whileWord rfl, Expr.literals_kinds, literals_bodyKinds body]
  | .evaluate _ expr => by simp [kinds, exprs, Expr.literals_kinds]

theorem literals_bodyKinds : (body : List Stmt) →
    literals (bodyKinds body) = (exprsAll body).filterMap Expr.literal?
  | [] => rfl
  | stmt :: rest => by
      simp [bodyKinds, exprsAll, stmt.literals_kinds, literals_bodyKinds rest]

end

end Stmt

namespace TokenKind

@[simp] theorem literals_modifiers (tags : List Tag) (isPublic : Bool) :
    literals (modifiers tags isPublic) = [] := by
  have tagged : literals (Tag.kindsAll tags) = [] := by
    induction tags with
    | nil => rfl
    | cons tag tags ih => simp [Tag.kindsAll_cons, ih]
  cases isPublic <;> simp [modifiers, visibility, tagged, literals_keyword .pubWord rfl]

@[simp] theorem literals_params (params : List Param) :
    (params.map Param.kinds).flatMap literals = [] := by
  simp [List.flatMap_map, Param.kinds]

end TokenKind

theorem Method.literals_bareKinds (method : Method) :
    literals method.bareKinds = (Stmt.exprsAll method.body).filterMap Expr.literal? := by
  simp [Method.bareKinds, Stmt.literals_bodyKinds]

namespace Member

mutual

theorem literals_kinds : (member : Member) →
    literals member.kinds = member.exprs.filterMap Expr.literal?
  | .field _ decl => by simp [kinds, exprs, Field.bareKinds]
  | .method _ decl => by simp [kinds, exprs, literals_keyword .fnWord rfl, Method.literals_bareKinds]
  | .constructor _ decl => by
      simp [kinds, exprs, Constructor.bareKinds, literals_keyword .newWord rfl, Stmt.literals_bodyKinds]
  | .initializer _ body => by
      simp [kinds, exprs, literals_keyword .initWord rfl, Stmt.literals_bodyKinds]
  | .nested _ ⟨_, _, _, members⟩ => by
      simp [kinds, Class.kinds, exprs, literals_keyword .classWord rfl, literals_kindsAll members]

theorem literals_kindsAll : (members : List Member) →
    literals (kindsAll members) = (exprsAll members).filterMap Expr.literal?
  | [] => rfl
  | member :: rest => by
      simp [kindsAll, exprsAll, member.literals_kinds, literals_kindsAll rest]

end

end Member

namespace Program

/-- The literals among the tokens of a program are the literals among its expressions. -/
theorem literals_kinds (program : Program) :
    literals program.kinds = program.exprs.filterMap Expr.literal? := by
  have each (declaration : Declaration) :
      literals declaration.kinds = declaration.exprs.filterMap Expr.literal? := by
    cases declaration with
    | importPath span path =>
        simp [Declaration.kinds, Declaration.exprs, literals_keyword .importWord rfl]
    | type span decl =>
        simp [Declaration.kinds, Declaration.exprs, Class.kinds_eq, literals_keyword .classWord rfl,
          Member.literals_kindsAll]
    | function span decl =>
        simp [Declaration.kinds, Declaration.exprs, literals_keyword .fnWord rfl,
          Method.literals_bareKinds]
  obtain ⟨declarations⟩ := program
  induction declarations with
  | nil => rfl
  | cons declaration declarations ih =>
      simp only [kinds, exprs, List.flatMap_cons, literals_append, List.filterMap_append] at ih ⊢
      rw [each, ih]

end Program

end DataClass
