import DataClass.Proofs.Layout.RoundTrip
namespace DataClass

/-! The expressions of a program, each with the expressions inside of it. What has been read consists
of expressions that can be written. -/

namespace Expr

mutual

/-- An expression and the expressions inside of it. -/
def parts : Expr → List Expr
  | .field span base name => .field span base name :: base.parts
  | .call span callee arguments =>
      .call span callee arguments :: (callee.parts ++ partsAll arguments)
  | .methodCall span receiver name arguments =>
      .methodCall span receiver name arguments :: (receiver.parts ++ partsAll arguments)
  | .unary span op operand => .unary span op operand :: operand.parts
  | .binary span left op right => .binary span left op right :: (left.parts ++ right.parts)
  | .paren span inner => .paren span inner :: inner.parts
  | .int span value => [.int span value]
  | .float span value => [.float span value]
  | .string span value => [.string span value]
  | .bool span value => [.bool span value]
  | .null span => [.null span]
  | .ident span name => [.ident span name]
  | .this span => [.this span]

def partsAll : List Expr → List Expr
  | [] => []
  | expr :: rest => expr.parts ++ partsAll rest

end

theorem partsAll_eq_flatMap (exprs : List Expr) : partsAll exprs = exprs.flatMap parts := by
  induction exprs with
  | nil => rfl
  | cons expr rest ih => rw [partsAll, ih, List.flatMap_cons]

theorem mem_parts (expr : Expr) : expr ∈ expr.parts := by
  cases expr <;> simp [parts]

/-- The written form of an expression can be read. -/
structure Writable (expr : Expr) : Prop where
  shaped : expr.Shaped
  lexical : TokenKind.Lexical expr.kinds

/-- What is inside of an expression that can be written can be written. -/
theorem Writable.parts {expr : Expr} (writable : expr.Writable) :
    ∀ part ∈ expr.parts, part.Writable := by
  obtain ⟨shaped, lexical⟩ := writable
  have whole : expr.Writable := ⟨shaped, lexical⟩
  have all (arguments : List Expr) (lexical : TokenKind.Lexical
        (TokenKind.parenthesized (kindsAll arguments)))
      (each : ∀ argument ∈ arguments, TokenKind.Lexical argument.kinds →
        argument.Writable → ∀ part ∈ argument.parts, part.Writable)
      (given : ∀ argument ∈ arguments, argument.Shaped) :
      ∀ part ∈ partsAll arguments, part.Writable := by
    rw [partsAll_eq_flatMap]
    intro part inside
    obtain ⟨argument, listed, held⟩ := List.mem_flatMap.mp inside
    rw [kindsAll_eq_map] at lexical
    have written := lexical.parenthesized _ (List.mem_map_of_mem listed)
    exact each argument listed written ⟨given argument listed, written⟩ part held
  induction shaped with
  | field span name tight inside ih =>
      rw [kinds] at lexical
      exact List.forall_mem_cons.mpr ⟨whole, ih lexical.left ⟨inside, lexical.left⟩⟩
  | call span tight called inside given ih each =>
      rw [kinds] at lexical
      exact List.forall_mem_cons.mpr ⟨whole, List.forall_mem_append.mpr
        ⟨ih lexical.left ⟨inside, lexical.left⟩, all _ lexical.right each given⟩⟩
  | methodCall span name tight inside given ih each =>
      rw [kinds] at lexical
      exact List.forall_mem_cons.mpr ⟨whole, List.forall_mem_append.mpr
        ⟨ih lexical.left ⟨inside, lexical.left⟩, all _ lexical.right.tail.tail each given⟩⟩
  | unary span op tight inside ih =>
      rw [kinds] at lexical
      exact List.forall_mem_cons.mpr ⟨whole, ih lexical.tail ⟨inside, lexical.tail⟩⟩
  | binary span op fits tight first second ih other =>
      rw [kinds] at lexical
      exact List.forall_mem_cons.mpr ⟨whole, List.forall_mem_append.mpr
        ⟨ih lexical.left ⟨first, lexical.left⟩,
          other lexical.right.tail ⟨second, lexical.right.tail⟩⟩⟩
  | paren span inside ih =>
      rw [kinds] at lexical
      exact List.forall_mem_cons.mpr ⟨whole, ih lexical.tail.left ⟨inside, lexical.tail.left⟩⟩
  | _ => exact List.forall_mem_singleton.mpr whole

/-- The expressions in an optional one. -/
def optionParts : Option Expr → List Expr
  | none => []
  | some expr => expr.parts

end Expr

namespace Stmt

mutual

/-- The expressions of a statement. -/
def exprs : Stmt → List Expr
  | .declare _ _ _ value => Expr.optionParts value
  | .assign _ target value => target.parts ++ value.parts
  | .giveBack _ value => Expr.optionParts value
  | .choose _ condition thenBody none => condition.parts ++ exprsAll thenBody
  | .choose _ condition thenBody (some elseBody) =>
      condition.parts ++ exprsAll thenBody ++ exprsAll elseBody
  | .repeatWhile _ condition body => condition.parts ++ exprsAll body
  | .evaluate _ expr => expr.parts

def exprsAll : List Stmt → List Expr
  | [] => []
  | stmt :: rest => stmt.exprs ++ exprsAll rest

end

theorem exprsAll_eq_flatMap (body : List Stmt) : exprsAll body = body.flatMap exprs := by
  induction body with
  | nil => rfl
  | cons stmt rest ih => rw [exprsAll, ih, List.flatMap_cons]

end Stmt

namespace Member

mutual

/-- The expressions of a member. -/
def exprs : Member → List Expr
  | .field _ decl => Expr.optionParts decl.default
  | .method _ decl => Stmt.exprsAll decl.body
  | .constructor _ decl => Stmt.exprsAll decl.body
  | .initializer _ body => Stmt.exprsAll body
  | .nested _ ⟨_, _, _, members⟩ => exprsAll members

def exprsAll : List Member → List Expr
  | [] => []
  | member :: rest => member.exprs ++ exprsAll rest

end

theorem exprsAll_eq_flatMap (members : List Member) : exprsAll members = members.flatMap exprs := by
  induction members with
  | nil => rfl
  | cons member rest ih => rw [exprsAll, ih, List.flatMap_cons]

end Member

namespace Declaration

def exprs : Declaration → List Expr
  | .importPath _ _ => []
  | .type _ decl => Member.exprsAll decl.members
  | .function _ decl => Stmt.exprsAll decl.body

end Declaration

namespace Program

/-- All expressions of a program. -/
def exprs (program : Program) : List Expr := program.declarations.flatMap Declaration.exprs

end Program

/-! ### What has been read -/

open TokenKind

namespace Expr

theorem writable_optionParts {value : Option Expr} (shaped : ∀ found ∈ value, found.Shaped)
    (lexical : ∀ found ∈ value, Lexical found.kinds) :
    ∀ expr ∈ optionParts value, expr.Writable := by
  cases value with
  | none => nofun
  | some value => exact Writable.parts ⟨shaped value rfl, lexical value rfl⟩

theorem lexical_of_equalsKinds {value : Option Expr} (lexical : Lexical (equalsKinds value)) :
    ∀ found ∈ value, Lexical found.kinds := by
  rintro found rfl
  exact lexical.tail

theorem lexical_of_optionKinds {value : Option Expr} (lexical : Lexical (optionKinds value)) :
    ∀ found ∈ value, Lexical found.kinds := by
  rintro found rfl
  exact lexical

end Expr

namespace Stmt

theorem lexical_of_elseKinds : (body : List Stmt) → Lexical (elseKinds body) → Lexical (bodyKinds body)
  | [], _ => lexical_nil
  | [only], lexical => by
      rw [elseKinds] at lexical
      rw [bodyKinds, bodyKinds, List.append_nil]
      split at lexical
      · exact lexical
      · exact lexical_braced.mp lexical
  | first :: second :: rest, lexical => by
      rw [elseKinds, lexical_braced] at lexical
      exact lexical

theorem writable_exprs {stmt : Stmt} (shaped : stmt.Shaped) (lexical : Lexical stmt.kinds) :
    ∀ expr ∈ stmt.exprs, expr.Writable := by
  have all (body : List Stmt) (lexical : Lexical (bodyKinds body))
      (each : ∀ stmt ∈ body, Lexical stmt.kinds → ∀ expr ∈ stmt.exprs, expr.Writable) :
      ∀ expr ∈ exprsAll body, expr.Writable := by
    rw [exprsAll_eq_flatMap]
    intro expr inside
    obtain ⟨stmt, listed, held⟩ := List.mem_flatMap.mp inside
    rw [bodyKinds_eq_flatMap] at lexical
    exact each stmt listed (lexical_flatMap.mp lexical stmt listed) expr held
  induction shaped with
  | declare span name typed valued =>
      rw [kinds] at lexical
      exact Expr.writable_optionParts valued
        (Expr.lexical_of_equalsKinds lexical.tail.tail.right.left)
  | assign span place first second =>
      rw [kinds] at lexical
      exact List.forall_mem_append.mpr ⟨Expr.Writable.parts ⟨first, lexical.left⟩,
        Expr.Writable.parts ⟨second, lexical.right.tail.left⟩⟩
  | giveBack span valued =>
      rw [kinds] at lexical
      exact Expr.writable_optionParts valued (Expr.lexical_of_optionKinds lexical.tail.left)
  | @choose span condition thenBody elseBody test yes no each eachElse =>
      cases elseBody with
      | none =>
          rw [kinds] at lexical
          exact List.forall_mem_append.mpr ⟨Expr.Writable.parts ⟨test, lexical.tail.left⟩,
            all _ (lexical_braced.mp lexical.tail.right) each⟩
      | some elseBody =>
          rw [kinds] at lexical
          exact List.forall_mem_append.mpr ⟨List.forall_mem_append.mpr
            ⟨Expr.Writable.parts ⟨test, lexical.tail.left⟩,
              all _ (lexical_braced.mp lexical.tail.right.left) each⟩,
            all _ (lexical_of_elseKinds _ lexical.tail.right.right.tail) (eachElse _ rfl)⟩
  | repeatWhile span test inside each =>
      rw [kinds] at lexical
      exact List.forall_mem_append.mpr ⟨Expr.Writable.parts ⟨test, lexical.tail.left⟩,
        all _ (lexical_braced.mp lexical.tail.right) each⟩
  | evaluate span inside =>
      rw [kinds] at lexical
      exact Expr.Writable.parts ⟨inside, lexical.left⟩

theorem writable_exprsAll {body : List Stmt} (shaped : ∀ stmt ∈ body, stmt.Shaped)
    (lexical : Lexical (bodyKinds body)) : ∀ expr ∈ exprsAll body, expr.Writable := by
  rw [exprsAll_eq_flatMap]
  intro expr inside
  obtain ⟨stmt, listed, held⟩ := List.mem_flatMap.mp inside
  rw [bodyKinds_eq_flatMap] at lexical
  exact writable_exprs (shaped stmt listed) (lexical_flatMap.mp lexical stmt listed) expr held

end Stmt

namespace Member

theorem Writable.exprs {member : Member} (writable : member.Writable) :
    ∀ expr ∈ member.exprs, expr.Writable := by
  obtain ⟨shaped, lexical⟩ := writable
  induction shaped with
  | field span inside =>
      rw [kinds] at lexical
      exact Expr.writable_optionParts inside.valued
        (Expr.lexical_of_equalsKinds lexical.right.tail.right.left)
  | method span inside =>
      rw [kinds] at lexical
      exact Stmt.writable_exprsAll inside.inside
        (lexical_braced.mp lexical.right.tail.tail.right.right)
  | constructor span inside =>
      rw [kinds] at lexical
      exact Stmt.writable_exprsAll inside.inside (lexical_braced.mp lexical.right.tail.right)
  | initializer span inside =>
      rw [kinds] at lexical
      exact Stmt.writable_exprsAll inside (lexical_braced.mp lexical.tail)
  | @nested span decl tagged inside each =>
      obtain ⟨tags, isPublic, name, members⟩ := decl
      rw [kinds, Class.kinds, kindsAll_eq_flatMap] at lexical
      rw [Member.exprs, exprsAll_eq_flatMap]
      intro expr held
      obtain ⟨member, listed, among⟩ := List.mem_flatMap.mp held
      exact each member listed
        (lexical_flatMap.mp (lexical_braced.mp lexical.right.tail.tail) member listed) expr among

end Member

namespace Program

/-- All expressions of a program that can be written can be written. -/
theorem Writable.exprs {program : Program} (writable : program.Writable) :
    ∀ expr ∈ program.exprs, expr.Writable := by
  intro expr inside
  obtain ⟨declaration, listed, held⟩ := List.mem_flatMap.mp inside
  have there := writable_iff.mp writable declaration listed
  cases declaration with
  | importPath span path => cases held
  | type span decl =>
      rw [Declaration.exprs, Member.exprsAll_eq_flatMap] at held
      obtain ⟨member, among, inner⟩ := List.mem_flatMap.mp held
      exact ((Class.writable_iff.mp ((Declaration.writable_type span).mp there)).2 member among).exprs
        expr inner
  | function span decl =>
      have lexical := there.lexical
      rw [Declaration.kinds] at lexical
      exact Stmt.writable_exprsAll there.shaped.inside
        (lexical_braced.mp lexical.right.tail.tail.right.right) expr held

end Program

end DataClass
