import DataClass.Lowering.Program
import DataClass.Proofs.Layout.Writable
import DataClass.Proofs.Program.Parts
namespace DataClass.Lowering

/-! What a program is made of, as far as it is lowered: names, types, expressions and statements. A node
fits if nothing about it keeps the program from being lowered. -/

/-- A name that is written, a type, or an expression or a statement with what `this` is there. -/
inductive Node where
  | name (name : String)
  | type (type : TypeRef)
  | expr (receiver : Receiver) (expr : Expr)
  | stmt (receiver : Receiver) (stmt : Stmt)

/-! ### Nodes -/

/-- The names in the path of a type. A builtin type is written by another name. -/
def pathNodes (path : List String) : List Node :=
  match builtin? path with
  | some _ => []
  | none => path.map .name

mutual

def typeNodes : TypeRef → List Node
  | .named span path arguments =>
      .type (.named span path arguments) :: (typesNodes arguments ++ pathNodes path)
  | .array span element => .type (.array span element) :: typeNodes element
  | .void span => [.type (.void span)]

def typesNodes : List TypeRef → List Node
  | [] => []
  | type :: rest => typeNodes type ++ typesNodes rest

end

def optionTypeNodes : Option TypeRef → List Node
  | none => []
  | some type => typeNodes type

mutual

def exprNodes (receiver : Receiver) : Expr → List Node
  | .int span value => [.expr receiver (.int span value)]
  | .float span value => [.expr receiver (.float span value)]
  | .string span value => [.expr receiver (.string span value)]
  | .bool span value => [.expr receiver (.bool span value)]
  | .null span => [.expr receiver (.null span)]
  | .ident span name => [.expr receiver (.ident span name), .name name]
  | .this span => [.expr receiver (.this span)]
  | .field span base name =>
      .expr receiver (.field span base name) :: (exprNodes receiver base ++ [.name name])
  | .call span callee arguments =>
      .expr receiver (.call span callee arguments) ::
        (exprsNodes receiver arguments ++ exprNodes receiver callee)
  | .methodCall span base name arguments =>
      .expr receiver (.methodCall span base name arguments) ::
        (exprNodes receiver base ++ .name name :: exprsNodes receiver arguments)
  | .unary span op operand =>
      .expr receiver (.unary span op operand) :: exprNodes receiver operand
  | .binary span left op right =>
      .expr receiver (.binary span left op right) ::
        (exprNodes receiver left ++ exprNodes receiver right)
  | .paren span inner => .expr receiver (.paren span inner) :: exprNodes receiver inner

def exprsNodes (receiver : Receiver) : List Expr → List Node
  | [] => []
  | expr :: rest => exprNodes receiver expr ++ exprsNodes receiver rest

end

def optionNodes (receiver : Receiver) : Option Expr → List Node
  | none => []
  | some value => exprNodes receiver value

mutual

def stmtNodes (receiver : Receiver) : Stmt → List Node
  | .declare span name type value =>
      .stmt receiver (.declare span name type value) :: .name name ::
        (optionTypeNodes type ++ optionNodes receiver value)
  | .assign span target value =>
      .stmt receiver (.assign span target value) ::
        (exprNodes receiver target ++ exprNodes receiver value)
  | .giveBack span value => .stmt receiver (.giveBack span value) :: optionNodes receiver value
  | .choose span condition thenBody none =>
      .stmt receiver (.choose span condition thenBody none) ::
        (exprNodes receiver condition ++ bodyNodes receiver thenBody)
  | .choose span condition thenBody (some elseBody) =>
      .stmt receiver (.choose span condition thenBody (some elseBody)) ::
        (exprNodes receiver condition ++ (bodyNodes receiver thenBody ++ bodyNodes receiver elseBody))
  | .repeatWhile span condition body =>
      .stmt receiver (.repeatWhile span condition body) ::
        (exprNodes receiver condition ++ bodyNodes receiver body)
  | .evaluate span expr => .stmt receiver (.evaluate span expr) :: exprNodes receiver expr

def bodyNodes (receiver : Receiver) : List Stmt → List Node
  | [] => []
  | stmt :: rest => stmtNodes receiver stmt ++ bodyNodes receiver rest

end

def paramNodes (param : Param) : List Node := .name param.name :: typeNodes param.type

def methodNodes (receiver : Receiver) (method : Method) : List Node :=
  .name method.name :: (method.params.flatMap paramNodes ++
    (typeNodes method.returnType ++ bodyNodes receiver method.body))

/-- The nodes of a member. A nested class is lowered beside the class it stands in. -/
def memberNodes : Member → List Node
  | .field _ decl => .name decl.name :: (optionTypeNodes decl.type ++ optionNodes .absent decl.default)
  | .method _ decl => methodNodes .borrowed decl
  | .constructor _ decl => decl.params.flatMap paramNodes ++ bodyNodes .built decl.body
  | .initializer _ body => bodyNodes .built body
  | .nested _ _ => []

def classNodes (decl : Class) : List Node := .name decl.name :: decl.members.flatMap memberNodes

def declarationNodes : Declaration → List Node
  | .importPath _ path => path.map .name
  | .type _ decl => (classTree decl).flatMap classNodes
  | .function _ decl => methodNodes .absent decl

/-- All nodes of a program. -/
def programNodes (program : Program) : List Node := program.declarations.flatMap declarationNodes

/-! ### Fitting -/

/-- What has to hold at a node. -/
def Node.Fits (table : ClassTable) : Node → Prop
  | .name word => ∃ token, identifier word = .ok token
  | .type (.named _ path arguments) =>
      ∀ builtin, builtin? path = some builtin → builtin.arity = arguments.length
  | .expr _ (.float _ value) => value.isFinite = true
  | .expr receiver (.this _) => receiver ≠ .absent
  | .expr _ (.call _ (.ident _ called) arguments) =>
      ∀ info, table.find? called = some info → info.hasNew = false → arguments = []
  | .stmt receiver (.giveBack _ (some _)) => receiver ≠ .built
  | .type _ | .expr _ _ | .stmt _ _ => True

def AllFit (table : ClassTable) (nodes : List Node) : Prop := ∀ node ∈ nodes, node.Fits table

section

variable {table : ClassTable}

@[simp] theorem allFit_nil : AllFit table [] := nofun

@[simp] theorem allFit_cons {node : Node} {nodes : List Node} :
    AllFit table (node :: nodes) ↔ node.Fits table ∧ AllFit table nodes := List.forall_mem_cons

@[simp] theorem allFit_append {first second : List Node} :
    AllFit table (first ++ second) ↔ AllFit table first ∧ AllFit table second :=
  List.forall_mem_append

@[simp] theorem allFit_flatMap {α : Type} {values : List α} {nodes : α → List Node} :
    AllFit table (values.flatMap nodes) ↔ ∀ value ∈ values, AllFit table (nodes value) :=
  List.forall_mem_flatMap

end

/-! ### Names that have been read -/

open TokenKind

/-- The names among nodes are words that can be a name. -/
def Spellable (nodes : List Node) : Prop := ∀ word, .name word ∈ nodes → isIdentifier word = true

namespace Spellable

variable {first second nodes : List Node}

theorem nil : Spellable [] := nofun

theorem append (here : Spellable first) (later : Spellable second) : Spellable (first ++ second) :=
  fun word inside => (List.mem_append.mp inside).elim (here word) (later word)

theorem flatMap {α : Type} {values : List α} {nodesOf : α → List Node}
    (each : ∀ value ∈ values, Spellable (nodesOf value)) : Spellable (values.flatMap nodesOf) := by
  intro word inside
  obtain ⟨value, listed, held⟩ := List.mem_flatMap.mp inside
  exact each value listed word held

theorem name {word : String} (lexical : (TokenKind.identifier word).IsLexical)
    (later : Spellable nodes) : Spellable (.name word :: nodes) := by
  intro other inside
  rcases List.mem_cons.mp inside with same | behind
  · exact Node.name.inj same ▸ lexical.1
  · exact later other behind

theorem other {node : Node} (unnamed : ∀ word, node ≠ .name word) (later : Spellable nodes) :
    Spellable (node :: nodes) := by
  intro word inside
  rcases List.mem_cons.mp inside with same | behind
  · exact absurd same.symm (unnamed word)
  · exact later word behind

theorem type {type : TypeRef} (later : Spellable nodes) : Spellable (.type type :: nodes) :=
  other (fun _ => Node.noConfusion) later

theorem expr {receiver : Receiver} {expr : Expr} (later : Spellable nodes) :
    Spellable (.expr receiver expr :: nodes) := other (fun _ => Node.noConfusion) later

theorem stmt {receiver : Receiver} {stmt : Stmt} (later : Spellable nodes) :
    Spellable (.stmt receiver stmt :: nodes) := other (fun _ => Node.noConfusion) later

end Spellable

theorem spellable_path {path : List String} (lexical : Lexical (pathKinds path)) :
    Spellable (path.map .name) := by
  have behind (segments : List String) (lexical : Lexical (afterPoints segments)) :
      Spellable (segments.map .name) := by
    induction segments with
    | nil => exact .nil
    | cons segment segments ih =>
        rw [afterPoints_cons] at lexical
        exact .name lexical.tail.head (ih lexical.tail.tail)
  cases path with
  | nil => exact .nil
  | cons first rest => exact .name lexical.head (behind rest lexical.tail)

mutual

theorem spellable_typeNodes : (type : TypeRef) → Lexical type.kinds → Spellable (typeNodes type)
  | .named _ path arguments, lexical => by
      rw [TypeRef.kinds] at lexical
      refine .type (.append (spellable_typesNodes arguments ?_) ?_)
      · cases arguments with
        | nil => nofun
        | cons first rest =>
            rw [TypeRef.kindsAll] at lexical ⊢
            exact lexical.right.tail.left.separated
      · unfold pathNodes
        split
        · exact .nil
        · exact spellable_path lexical.left
  | .array _ element, lexical => .type (spellable_typeNodes element lexical.left)
  | .void _, _ => .type .nil

theorem spellable_typesNodes : (types : List TypeRef) →
    (∀ kinds ∈ TypeRef.kindsAll types, Lexical kinds) → Spellable (typesNodes types)
  | [], _ => .nil
  | type :: rest, lexical => by
      obtain ⟨here, later⟩ := List.forall_mem_cons.mp lexical
      exact (spellable_typeNodes type here).append (spellable_typesNodes rest later)

end

theorem spellable_optionTypeNodes (type : Option TypeRef) (lexical : Lexical (TypeRef.colonKinds type)) :
    Spellable (optionTypeNodes type) := by
  cases type with
  | none => exact .nil
  | some type => exact spellable_typeNodes type lexical.tail

variable (receiver : Receiver)

mutual

theorem spellable_exprNodes : (expr : Expr) → Lexical expr.kinds → Spellable (exprNodes receiver expr)
  | .int _ _, _ | .float _ _, _ | .string _ _, _ | .bool _ _, _ | .null _, _ | .this _, _ => .expr .nil
  | .ident _ _, lexical => .expr (.name lexical.head .nil)
  | .field _ base _, lexical =>
      .expr ((spellable_exprNodes base lexical.left).append (.name lexical.right.tail.head .nil))
  | .call _ callee arguments, lexical =>
      .expr ((spellable_exprsNodes arguments lexical.right.parenthesized).append
        (spellable_exprNodes callee lexical.left))
  | .methodCall _ base _ arguments, lexical =>
      .expr ((spellable_exprNodes base lexical.left).append (.name lexical.right.tail.head
        (spellable_exprsNodes arguments lexical.right.tail.tail.parenthesized)))
  | .unary _ _ operand, lexical => .expr (spellable_exprNodes operand lexical.tail)
  | .binary _ left _ right, lexical =>
      .expr ((spellable_exprNodes left lexical.left).append
        (spellable_exprNodes right lexical.right.tail))
  | .paren _ inner, lexical => .expr (spellable_exprNodes inner lexical.tail.left)

theorem spellable_exprsNodes : (exprs : List Expr) →
    (∀ kinds ∈ Expr.kindsAll exprs, Lexical kinds) → Spellable (exprsNodes receiver exprs)
  | [], _ => .nil
  | expr :: rest, lexical => by
      obtain ⟨here, later⟩ := List.forall_mem_cons.mp lexical
      exact (spellable_exprNodes expr here).append (spellable_exprsNodes rest later)

end

theorem spellable_optionNodes {value : Option Expr} (lexical : ∀ found ∈ value, Lexical found.kinds) :
    Spellable (optionNodes receiver value) := by
  cases value with
  | none => exact .nil
  | some value => exact spellable_exprNodes receiver value (lexical value rfl)

mutual

theorem spellable_stmtNodes : (stmt : Stmt) → Lexical stmt.kinds → Spellable (stmtNodes receiver stmt)
  | .declare _ _ type value, lexical =>
      .stmt (.name lexical.tail.head (.append
        (spellable_optionTypeNodes type lexical.tail.tail.left)
        (spellable_optionNodes receiver (Expr.lexical_of_equalsKinds lexical.tail.tail.right.left))))
  | .assign _ target value, lexical =>
      .stmt ((spellable_exprNodes receiver target lexical.left).append
        (spellable_exprNodes receiver value lexical.right.tail.left))
  | .giveBack _ value, lexical =>
      .stmt (spellable_optionNodes receiver (Expr.lexical_of_optionKinds lexical.tail.left))
  | .choose _ condition thenBody none, lexical => by
      rw [Stmt.kinds] at lexical
      exact .stmt ((spellable_exprNodes receiver condition lexical.tail.left).append
        (spellable_bodyNodes thenBody (lexical_braced.mp lexical.tail.right)))
  | .choose _ condition thenBody (some elseBody), lexical => by
      rw [Stmt.kinds] at lexical
      exact .stmt ((spellable_exprNodes receiver condition lexical.tail.left).append
        ((spellable_bodyNodes thenBody (lexical_braced.mp lexical.tail.right.left)).append
          (spellable_bodyNodes elseBody
            (Stmt.lexical_of_elseKinds elseBody lexical.tail.right.right.tail))))
  | .repeatWhile _ condition body, lexical =>
      .stmt ((spellable_exprNodes receiver condition lexical.tail.left).append
        (spellable_bodyNodes body (lexical_braced.mp lexical.tail.right)))
  | .evaluate _ expr, lexical => .stmt (spellable_exprNodes receiver expr lexical.left)

theorem spellable_bodyNodes : (body : List Stmt) → Lexical (Stmt.bodyKinds body) →
    Spellable (bodyNodes receiver body)
  | [], _ => .nil
  | stmt :: rest, lexical =>
      (spellable_stmtNodes stmt lexical.left).append (spellable_bodyNodes rest lexical.right)

end

theorem spellable_params {params : List Param}
    (lexical : Lexical (parenthesized (params.map Param.kinds))) :
    Spellable (params.flatMap paramNodes) := by
  refine .flatMap fun param listed => ?_
  have written := lexical.parenthesized _ (List.mem_map_of_mem listed)
  exact .name written.head (spellable_typeNodes param.type written.tail.tail)

theorem spellable_methodNodes {method : Method} (lexical : Lexical method.bareKinds) :
    Spellable (methodNodes receiver method) := by
  refine .name lexical.head (.append (spellable_params lexical.tail.left) (.append ?_
    (spellable_bodyNodes receiver method.body (lexical_braced.mp lexical.tail.right.right))))
  have returned := lexical.tail.right.left
  unfold TypeRef.returnKinds at returned
  split at returned
  · next void =>
    cases type : method.returnType with
    | void span => exact .type .nil
    | _ =>
      rw [type] at void
      cases void
  · exact spellable_typeNodes method.returnType returned.tail

theorem spellable_memberNodes {member : Member} (writable : member.Writable) :
    Spellable (memberNodes member) := by
  have lexical := writable.lexical
  cases member with
  | field span decl =>
      rw [Member.kinds] at lexical
      have bare := lexical.right
      exact .name bare.head ((spellable_optionTypeNodes decl.type bare.tail.left).append
        (spellable_optionNodes .absent (Expr.lexical_of_equalsKinds bare.tail.right.left)))
  | method span decl =>
      rw [Member.kinds] at lexical
      exact spellable_methodNodes .borrowed lexical.right.tail
  | constructor span decl =>
      rw [Member.kinds] at lexical
      have bare := lexical.right.tail
      exact (spellable_params bare.left).append
        (spellable_bodyNodes .built decl.body (lexical_braced.mp bare.right))
  | initializer span body =>
      rw [Member.kinds] at lexical
      exact spellable_bodyNodes .built body (lexical_braced.mp lexical.tail)
  | nested span decl => exact .nil

mutual

/-- The nested classes of a class that can be written can be written. -/
theorem writable_classTree : (decl : Class) → decl.Writable → ∀ found ∈ classTree decl, found.Writable
  | ⟨_, _, _, members⟩, writable => by
      rw [classTree]
      exact List.forall_mem_cons.mpr
        ⟨writable, writable_memberTrees members (Class.writable_iff.mp writable).2⟩

theorem writable_memberTree : (member : Member) → member.Writable →
    ∀ found ∈ memberTree member, found.Writable
  | .nested span decl, writable => by
      rw [memberTree]
      exact writable_classTree decl ((Member.writable_nested span).mp writable)
  | .field _ _, _ | .method _ _, _ | .constructor _ _, _ | .initializer _ _, _ => nofun

theorem writable_memberTrees : (members : List Member) → (∀ member ∈ members, member.Writable) →
    ∀ found ∈ memberTrees members, found.Writable
  | [], _ => nofun
  | member :: rest, writable => by
      obtain ⟨here, later⟩ := List.forall_mem_cons.mp writable
      rw [memberTrees]
      exact List.forall_mem_append.mpr
        ⟨writable_memberTree member here, writable_memberTrees rest later⟩

end

theorem spellable_classNodes {decl : Class} (writable : decl.Writable) :
    Spellable (classNodes decl) := by
  obtain ⟨headed, inside⟩ := Class.writable_iff.mp writable
  exact .name headed.named (.flatMap fun member listed => spellable_memberNodes (inside member listed))

/-- The names in a program that can be written can be names. -/
theorem spellable_programNodes {program : Program} (writable : program.Writable) :
    Spellable (programNodes program) := by
  refine .flatMap fun declaration listed => ?_
  have there := Program.writable_iff.mp writable declaration listed
  cases declaration with
  | importPath span path => exact spellable_path there.lexical.tail.left
  | type span decl =>
      have each := writable_classTree decl ((Declaration.writable_type span).mp there)
      exact .flatMap fun found inside => spellable_classNodes (each found inside)
  | function span decl => exact spellable_methodNodes .absent there.lexical.right.tail

end DataClass.Lowering
