import Mathlib.Data.List.Forall2
import DataClass.Proofs.Lowering.Structure
import DataClass.Proofs.Target.Code
namespace DataClass.Lowering

open Target

/-! Lowering leaves places where they are. A place that a body writes to, `this` or a variable with fields
read off it, is lowered to its root with the same fields read off it; nothing is cloned on the way. The
writes of the lowered body are those of the body in their order, with some calls of `clone` in between. -/

/-! ### What a body writes to -/

section

variable (isMutating : String → Bool)

/-- The call of a mutating method on a place. -/
def callWrite? : Expr → Option (Write Expr)
  | .methodCall _ receiver name _ =>
      if isMutating name && (root? receiver).isSome then some (.call receiver name) else none
  | _ => none

/-- The calls of mutating methods on places anywhere in an expression. -/
def exprPlaces (expr : Expr) : List (Write Expr) := expr.parts.filterMap (callWrite? isMutating)

def exprsPlaces (exprs : List Expr) : List (Write Expr) :=
  (Expr.partsAll exprs).filterMap (callWrite? isMutating)

def optionPlaces (value : Option Expr) : List (Write Expr) :=
  (Expr.optionParts value).filterMap (callWrite? isMutating)

mutual

/-- The assignments to places and the calls of mutating methods on places in a statement. -/
def stmtPlaces : Stmt → List (Write Expr)
  | .declare _ _ _ value => optionPlaces isMutating value
  | .assign _ target value =>
      (if (root? target).isSome then [.assign target] else []) ++
        exprPlaces isMutating target ++ exprPlaces isMutating value
  | .giveBack _ value => optionPlaces isMutating value
  | .choose _ condition thenBody none =>
      exprPlaces isMutating condition ++ bodyPlaces thenBody
  | .choose _ condition thenBody (some elseBody) =>
      exprPlaces isMutating condition ++ bodyPlaces thenBody ++ bodyPlaces elseBody
  | .repeatWhile _ condition body => exprPlaces isMutating condition ++ bodyPlaces body
  | .evaluate _ expr => exprPlaces isMutating expr

def bodyPlaces : List Stmt → List (Write Expr)
  | [] => []
  | stmt :: rest => stmtPlaces stmt ++ bodyPlaces rest

end

mutual

/-- The names of the variables that a statement declares. -/
def stmtLets : Stmt → List String
  | .declare _ name _ _ => [name]
  | .choose _ _ thenBody none => bodyLets thenBody
  | .choose _ _ thenBody (some elseBody) => bodyLets thenBody ++ bodyLets elseBody
  | .repeatWhile _ _ body => bodyLets body
  | .assign _ _ _ | .giveBack _ _ | .evaluate _ _ => []

def bodyLets : List Stmt → List String
  | [] => []
  | stmt :: rest => stmtLets stmt ++ bodyLets rest

end

end

variable {isMutating : String → Bool}

/-- The roots of the writes in a list. -/
def writtenRoots (writes : List (Write Expr)) : List Root := writes.filterMap fun write => root? write.place

theorem writtenRoots_append (left right : List (Write Expr)) :
    writtenRoots (left ++ right) = writtenRoots left ++ writtenRoots right :=
  List.filterMap_append

theorem exprPlaces_call (span : Span) (callee : Expr) (arguments : List Expr) :
    exprPlaces isMutating (.call span callee arguments) =
      exprPlaces isMutating callee ++ exprsPlaces isMutating arguments := by
  rw [exprPlaces, Expr.parts, List.filterMap_cons_none rfl, List.filterMap_append]
  rfl

theorem exprPlaces_methodCall (span : Span) (receiver : Expr) (name : String) (arguments : List Expr) :
    exprPlaces isMutating (.methodCall span receiver name arguments) =
      (if isMutating name && (root? receiver).isSome then [.call receiver name] else []) ++
        (exprPlaces isMutating receiver ++ exprsPlaces isMutating arguments) := by
  rw [exprPlaces, Expr.parts, List.filterMap_cons, callWrite?, List.filterMap_append]
  split <;> simp_all [exprPlaces, exprsPlaces]

theorem exprPlaces_binary (span : Span) (left : Expr) (op : BinaryOp) (right : Expr) :
    exprPlaces isMutating (.binary span left op right) =
      exprPlaces isMutating left ++ exprPlaces isMutating right := by
  rw [exprPlaces, Expr.parts, List.filterMap_cons_none rfl, List.filterMap_append]
  rfl

theorem exprsPlaces_cons (expr : Expr) (rest : List Expr) :
    exprsPlaces isMutating (expr :: rest) = exprPlaces isMutating expr ++ exprsPlaces isMutating rest := by
  rw [exprsPlaces, Expr.partsAll, List.filterMap_append]
  rfl

mutual

theorem writtenRoots_exprPlaces : (expr : Expr) →
    writtenRoots (exprPlaces isMutating expr) = exprWrites isMutating expr
  | .int _ _ | .float _ _ | .string _ _ | .bool _ _ | .null _ | .ident _ _ | .this _ => rfl
  | .field _ base _ => writtenRoots_exprPlaces base
  | .call _ callee arguments => by
      rw [exprPlaces_call, writtenRoots_append, writtenRoots_exprPlaces callee,
        writtenRoots_exprsPlaces arguments, exprWrites]
  | .methodCall _ receiver name arguments => by
      rw [exprPlaces_methodCall, writtenRoots_append, writtenRoots_append,
        writtenRoots_exprPlaces receiver, writtenRoots_exprsPlaces arguments, exprWrites,
        List.append_assoc]
      cases isMutating name <;> cases rooted : root? receiver <;>
        simp [writtenRoots, Write.place, rooted]
  | .unary _ _ operand => writtenRoots_exprPlaces operand
  | .binary _ left _ right => by
      rw [exprPlaces_binary, writtenRoots_append, writtenRoots_exprPlaces left,
        writtenRoots_exprPlaces right, exprWrites]
  | .paren _ inner => writtenRoots_exprPlaces inner

theorem writtenRoots_exprsPlaces : (exprs : List Expr) →
    writtenRoots (exprsPlaces isMutating exprs) = exprsWrites isMutating exprs
  | [] => rfl
  | expr :: rest => by
      rw [exprsPlaces_cons, writtenRoots_append, writtenRoots_exprPlaces expr,
        writtenRoots_exprsPlaces rest, exprsWrites]

end

theorem writtenRoots_optionPlaces (value : Option Expr) :
    writtenRoots (optionPlaces isMutating value) = optionWrites isMutating value := by
  cases value with
  | none => rfl
  | some expr => exact writtenRoots_exprPlaces expr

mutual

theorem writtenRoots_stmtPlaces : (stmt : Stmt) →
    writtenRoots (stmtPlaces isMutating stmt) = stmtWrites isMutating stmt
  | .declare _ _ _ value => writtenRoots_optionPlaces value
  | .assign _ target value => by
      rw [stmtPlaces, writtenRoots_append, writtenRoots_append, writtenRoots_exprPlaces,
        writtenRoots_exprPlaces, stmtWrites]
      cases rooted : root? target <;> simp [writtenRoots, Write.place, rooted]
  | .giveBack _ value => writtenRoots_optionPlaces value
  | .choose _ condition thenBody none => by
      rw [stmtPlaces, writtenRoots_append, writtenRoots_exprPlaces, writtenRoots_bodyPlaces thenBody,
        stmtWrites]
  | .choose _ condition thenBody (some elseBody) => by
      rw [stmtPlaces, writtenRoots_append, writtenRoots_append, writtenRoots_exprPlaces,
        writtenRoots_bodyPlaces thenBody, writtenRoots_bodyPlaces elseBody, stmtWrites]
  | .repeatWhile _ condition body => by
      rw [stmtPlaces, writtenRoots_append, writtenRoots_exprPlaces, writtenRoots_bodyPlaces body,
        stmtWrites]
  | .evaluate _ expr => writtenRoots_exprPlaces expr

theorem writtenRoots_bodyPlaces : (body : List Stmt) →
    writtenRoots (bodyPlaces isMutating body) = bodyWrites isMutating body
  | [] => rfl
  | stmt :: rest => by
      rw [bodyPlaces, writtenRoots_append, writtenRoots_stmtPlaces stmt, writtenRoots_bodyPlaces rest,
        bodyWrites]

end

theorem mem_bodyWrites {body : List Stmt} {root : Root} :
    root ∈ bodyWrites isMutating body ↔
      ∃ write ∈ bodyPlaces isMutating body, root? write.place = some root := by
  rw [← writtenRoots_bodyPlaces, writtenRoots, List.mem_filterMap]

/-! ### What the lowered body writes to -/

/-- A tree with the shape of a place, node by node: its root, with fields read off it and parentheses
around it. -/
inductive PlaceOf (receiver : Receiver) : Expr → Tree → Prop where
  | this {span : Span} {tree : Tree} (known : thisTree receiver = .ok tree) :
      PlaceOf receiver (.this span) tree
  | variable {span : Span} {name word : String} (spelled : spelledName name = .ok word) :
      PlaceOf receiver (.ident span name) (.path word [])
  | field {span : Span} {base : Expr} {tree : Tree} {name word : String}
      (inside : PlaceOf receiver base tree) (spelled : spelledName name = .ok word) :
      PlaceOf receiver (.field span base name) (.field tree word)
  | paren {span : Span} {inner : Expr} {tree : Tree} (inside : PlaceOf receiver inner tree) :
      PlaceOf receiver (.paren span inner) (.paren tree)

/-- A write that is kept: an assignment to the same place, or the call of the same method on it. -/
inductive Keeps (receiver : Receiver) : Write Expr → Write Tree → Prop where
  | assign {place : Expr} {tree : Tree} (same : PlaceOf receiver place tree) :
      Keeps receiver (.assign place) (.assign tree)
  | call {place : Expr} {tree : Tree} {name word : String} (same : PlaceOf receiver place tree)
      (spelled : spelledName name = .ok word) : Keeps receiver (.call place name) (.call tree word)

/-- All writes are kept in their order, and others may stand in between. -/
abbrev AllKept (receiver : Receiver) : List (Write Expr) → List (Write Tree) → Prop :=
  List.SublistForall₂ (Keeps receiver)

theorem AllKept.append {receiver : Receiver} {writes others : List (Write Expr)}
    {emitted later : List (Write Tree)} (first : AllKept receiver writes emitted)
    (second : AllKept receiver others later) : AllKept receiver (writes ++ others) (emitted ++ later) := by
  induction first with
  | @nil emitted =>
      induction emitted with
      | nil => exact second
      | cons _ _ ih => exact .cons_right ih
  | cons kept _ ih => exact .cons kept ih
  | cons_right _ ih => exact .cons_right ih

theorem AllKept.exists_of_mem {receiver : Receiver} {writes : List (Write Expr)}
    {emitted : List (Write Tree)} (kept : AllKept receiver writes emitted) {write : Write Expr}
    (listed : write ∈ writes) : ∃ other ∈ emitted, Keeps receiver write other := by
  induction kept with
  | nil => cases listed
  | cons here _ ih =>
      rcases List.mem_cons.mp listed with rfl | later
      · exact ⟨_, List.mem_cons_self, here⟩
      · obtain ⟨other, inside, same⟩ := ih later
        exact ⟨other, List.mem_cons_of_mem _ inside, same⟩
  | cons_right _ ih =>
      obtain ⟨other, inside, same⟩ := ih listed
      exact ⟨other, List.mem_cons_of_mem _ inside, same⟩

variable {context : Context}

theorem placeOf_lowerTree {root : Root} : (expr : Expr) → ∀ {tree}, root? expr = some root →
    lowerTree context .place expr = .ok tree → PlaceOf context.receiver expr tree
  | .this _, _, _, lowered => .this lowered
  | .ident _ name, _, _, lowered => by
      cases grows_of_lowerTree lowered with
      | ident _ spelled => exact .variable spelled
  | .field _ base name, _, rooted, lowered => by
      cases grows_of_lowerTree lowered with
      | field _ inside spelled => exact .field (placeOf_lowerTree base rooted inside) spelled
  | .paren _ inner, _, rooted, lowered => by
      cases grows_of_lowerTree lowered with
      | paren _ inside => exact .paren (placeOf_lowerTree inner rooted inside)
  | .int _ _, _, rooted, _ | .float _ _, _, rooted, _ | .string _ _, _, rooted, _
  | .bool _ _, _, rooted, _ | .null _, _, rooted, _ | .call _ _ _, _, rooted, _
  | .methodCall _ _ _ _, _, rooted, _ | .unary _ _ _, _, rooted, _
  | .binary _ _ _ _, _, rooted, _ => nomatch rooted

/-- A callee that names a class is a name, which writes to nothing. -/
theorem exprPlaces_of_calledClass? {callee : Expr} {info : ClassInfo}
    (called : calledClass? context callee = some info) : exprPlaces isMutating callee = [] := by
  cases callee with
  | ident span name => rfl
  | _ => cases called

theorem calls_constructionTree {info : ClassInfo} {arguments : List Tree} {tree : Tree}
    (built : constructionTree info arguments = .ok tree) : tree.calls = Tree.callsAll arguments := by
  obtain ⟨word, function, _, _, rfl⟩ := exists_path_of_constructionTree built
  rfl

theorem exprPlaces_of_literal {left right : Expr} {op : BinaryOp} {value : String}
    (literal : rightOperand context left op right = .literal value) :
    exprPlaces isMutating right = [] := by
  unfold rightOperand at literal
  split at literal
  · cases right with
    | string span value => rfl
    | _ =>
      dsimp only at literal
      split at literal <;> cases literal
  · cases literal

mutual

/-- The writes of an expression are kept, whatever its value is used for. -/
theorem allKept_lowerTree : (expr : Expr) → ∀ {usage tree}, lowerTree context usage expr = .ok tree →
    AllKept context.receiver (exprPlaces isMutating expr) tree.calls
  | .int _ _, _, _, _ | .float _ _, _, _, _ | .string _ _, _, _, _ | .bool _ _, _, _, _
  | .null _, _, _, _ | .ident _ _, _, _, _ | .this _, _, _, _ => .nil
  | .field _ base _, _, _, lowered => by
      cases grows_of_lowerTree lowered with
      | field _ inside =>
          have kept := allKept_lowerTree base inside
          exact kept
      | cloned _ inside =>
          refine .cons_right ?_
          rw [Tree.callsAll, List.append_nil]
          have kept := allKept_lowerTree base inside
          exact kept
  | .call _ callee arguments, _, _, lowered => by
      rw [exprPlaces_call]
      cases grows_of_lowerTree lowered with
      | construction _ given called built =>
          rw [exprPlaces_of_calledClass? called, calls_constructionTree built]
          exact allKept_lowerTrees arguments given
      | call _ given _ inside =>
          exact (allKept_lowerTree callee inside).append (allKept_lowerTrees arguments given)
  | .methodCall _ receiver name arguments, _, _, lowered => by
      cases grows_of_lowerTree lowered with
      | methodCall _ inside spelled given =>
          have kept := (allKept_lowerTree receiver inside).append (allKept_lowerTrees arguments given)
          rw [exprPlaces_methodCall]
          split
          · next written =>
            obtain ⟨root, rooted⟩ := Option.isSome_iff_exists.mp (Bool.and_eq_true_iff.mp written).2
            exact .cons (.call (placeOf_lowerTree receiver rooted inside) spelled) kept
          · exact .cons_right kept
  | .unary _ _ operand, _, _, lowered => by
      cases grows_of_lowerTree lowered with
      | unary _ _ inside =>
          have kept := allKept_lowerTree operand inside
          exact kept
  | .binary _ left _ right, _, _, lowered => by
      rw [exprPlaces_binary]
      cases grows_of_lowerTree lowered with
      | joined _ first how =>
          rw [exprPlaces_of_literal how]
          exact (allKept_lowerTree left first).append .nil
      | borrowed _ first _ second =>
          have kept := allKept_lowerTree right second
          exact (allKept_lowerTree left first).append kept
      | binary _ first _ second =>
          exact (allKept_lowerTree left first).append (allKept_lowerTree right second)
  | .paren _ inner, _, _, lowered => by
      cases grows_of_lowerTree lowered with
      | paren _ inside =>
          have kept := allKept_lowerTree inner inside
          exact kept

theorem allKept_lowerTrees : (exprs : List Expr) → ∀ {trees}, lowerTrees context exprs = .ok trees →
    AllKept context.receiver (exprsPlaces isMutating exprs) (Tree.callsAll trees)
  | [], _, _ => .nil
  | expr :: rest, _, lowered => by
      rw [lowerTrees] at lowered
      obtain ⟨first, here, lowered⟩ := Lowered.bind_eq_ok.mp lowered
      obtain ⟨later, there, lowered⟩ := Lowered.bind_eq_ok.mp lowered
      obtain rfl := Except.ok.inj lowered
      rw [exprsPlaces_cons]
      exact (allKept_lowerTree expr here).append (allKept_lowerTrees rest there)

end

end DataClass.Lowering
