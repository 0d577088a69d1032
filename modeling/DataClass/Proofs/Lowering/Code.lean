import DataClass.Lowering.Program
import DataClass.Proofs.Lowering.Places
namespace DataClass.Lowering

open Target

/-! Lowering of statements node by node. The tokens of the lowered statements are those that are written
(`lowerBody_eq`); what a body writes to is kept, and each variable is declared where it was. -/

section

variable (context : Context)

def lowerOptionTree : Option Expr → Lowered (Option Tree)
  | none => return none
  | some value => do return some (← lowerTree context .value value)

/-- In a constructor the value being built is what is returned, and nothing else can be. -/
def giveBackCode : Option Expr → Lowered Code
  | none =>
      if context.receiver = .built then return .giveBack (some (.path "this" []))
      else return .giveBack none
  | some value =>
      if context.receiver = .built then throw .valueFromConstructor
      else do return .giveBack (some (← lowerTree context .value value))

mutual

def lowerCode : Stmt → Lowered Code
  | .declare _ name type value => do
      let word ← spelledName name
      let type ← lowerTypeSuffix type
      let value ← lowerOptionTree context value
      return .declare ⟨context.isMutable name, word⟩ type value
  | .assign _ target value => do
      let target ← lowerTree context .place target
      let value ← lowerTree context .value value
      return .assign target value
  | .giveBack _ value => giveBackCode context value
  | .choose _ condition thenBody none => do
      let condition ← lowerTree context .value condition
      let thenCode ← lowerCodes thenBody
      return .choose condition thenCode none
  | .choose _ condition thenBody (some elseBody) => do
      let condition ← lowerTree context .value condition
      let thenCode ← lowerCodes thenBody
      let elseCode ← lowerCodes elseBody
      return .choose condition thenCode (some elseCode)
  | .repeatWhile _ condition body => do
      let condition ← lowerTree context .value condition
      let body ← lowerCodes body
      return .repeatWhile condition body
  | .evaluate _ expr => do return .evaluate (← lowerTree context .value expr)

def lowerCodes : List Stmt → Lowered (List Code)
  | [] => return []
  | stmt :: rest => do
      let first ← lowerCode stmt
      let later ← lowerCodes rest
      return first :: later

end

end

variable {context : Context}

/-- The ways to lower a statement, one or more for each kind. The parts are lowered on their own. -/
inductive Becomes (context : Context) : Stmt → Code → Prop where
  | declare {name word : String} {type : Option TypeRef} {suffix : Tokens} {value : Option Expr}
      {tree : Option Tree} (span : Span) (spelled : spelledName name = .ok word)
      (typed : lowerTypeSuffix type = .ok suffix) (valued : lowerOptionTree context value = .ok tree) :
      Becomes context (.declare span name type value)
        (.declare ⟨context.isMutable name, word⟩ suffix tree)
  | assign {target value : Expr} {place tree : Tree} (span : Span)
      (placed : lowerTree context .place target = .ok place)
      (valued : lowerTree context .value value = .ok tree) :
      Becomes context (.assign span target value) (.assign place tree)
  | finish (span : Span) (building : context.receiver = .built) :
      Becomes context (.giveBack span none) (.giveBack (some (.path "this" [])))
  | leave (span : Span) (outside : context.receiver ≠ .built) :
      Becomes context (.giveBack span none) (.giveBack none)
  | giveBack {value : Expr} {tree : Tree} (span : Span) (outside : context.receiver ≠ .built)
      (valued : lowerTree context .value value = .ok tree) :
      Becomes context (.giveBack span (some value)) (.giveBack (some tree))
  | choose {condition : Expr} {test : Tree} {thenBody : List Stmt} {thenCode : List Code} (span : Span)
      (tested : lowerTree context .value condition = .ok test)
      (yes : lowerCodes context thenBody = .ok thenCode) :
      Becomes context (.choose span condition thenBody none) (.choose test thenCode none)
  | chooseElse {condition : Expr} {test : Tree} {thenBody elseBody : List Stmt}
      {thenCode elseCode : List Code} (span : Span)
      (tested : lowerTree context .value condition = .ok test)
      (yes : lowerCodes context thenBody = .ok thenCode)
      (no : lowerCodes context elseBody = .ok elseCode) :
      Becomes context (.choose span condition thenBody (some elseBody))
        (.choose test thenCode (some elseCode))
  | repeatWhile {condition : Expr} {test : Tree} {body : List Stmt} {code : List Code} (span : Span)
      (tested : lowerTree context .value condition = .ok test)
      (inside : lowerCodes context body = .ok code) :
      Becomes context (.repeatWhile span condition body) (.repeatWhile test code)
  | evaluate {expr : Expr} {tree : Tree} (span : Span)
      (valued : lowerTree context .value expr = .ok tree) :
      Becomes context (.evaluate span expr) (.evaluate tree)

/-- A statement that can be lowered is lowered in one of these ways. -/
theorem becomes_of_lowerCode {stmt : Stmt} {code : Code} (lowered : lowerCode context stmt = .ok code) :
    Becomes context stmt code := by
  cases stmt with
  | declare span name type value =>
      rw [lowerCode] at lowered
      obtain ⟨word, spelled, lowered⟩ := Lowered.bind_eq_ok.mp lowered
      obtain ⟨suffix, typed, lowered⟩ := Lowered.bind_eq_ok.mp lowered
      obtain ⟨tree, valued, lowered⟩ := Lowered.bind_eq_ok.mp lowered
      obtain rfl := Except.ok.inj lowered
      exact .declare span spelled typed valued
  | assign span target value =>
      rw [lowerCode] at lowered
      obtain ⟨place, placed, lowered⟩ := Lowered.bind_eq_ok.mp lowered
      obtain ⟨tree, valued, lowered⟩ := Lowered.bind_eq_ok.mp lowered
      obtain rfl := Except.ok.inj lowered
      exact .assign span placed valued
  | giveBack span value =>
      rw [lowerCode, giveBackCode.eq_def] at lowered
      split at lowered <;> split at lowered
      · next building =>
        obtain rfl := Except.ok.inj lowered
        exact .finish span building
      · next outside =>
        obtain rfl := Except.ok.inj lowered
        exact .leave span outside
      · cases lowered
      · next outside =>
        obtain ⟨tree, valued, lowered⟩ := Lowered.bind_eq_ok.mp lowered
        obtain rfl := Except.ok.inj lowered
        exact .giveBack span outside valued
  | choose span condition thenBody elseBody =>
      cases elseBody with
      | none =>
          rw [lowerCode] at lowered
          obtain ⟨test, tested, lowered⟩ := Lowered.bind_eq_ok.mp lowered
          obtain ⟨thenCode, yes, lowered⟩ := Lowered.bind_eq_ok.mp lowered
          obtain rfl := Except.ok.inj lowered
          exact .choose span tested yes
      | some elseBody =>
          rw [lowerCode] at lowered
          obtain ⟨test, tested, lowered⟩ := Lowered.bind_eq_ok.mp lowered
          obtain ⟨thenCode, yes, lowered⟩ := Lowered.bind_eq_ok.mp lowered
          obtain ⟨elseCode, no, lowered⟩ := Lowered.bind_eq_ok.mp lowered
          obtain rfl := Except.ok.inj lowered
          exact .chooseElse span tested yes no
  | repeatWhile span condition body =>
      rw [lowerCode] at lowered
      obtain ⟨test, tested, lowered⟩ := Lowered.bind_eq_ok.mp lowered
      obtain ⟨code, inside, lowered⟩ := Lowered.bind_eq_ok.mp lowered
      obtain rfl := Except.ok.inj lowered
      exact .repeatWhile span tested inside
  | evaluate span expr =>
      rw [lowerCode] at lowered
      obtain ⟨tree, valued, lowered⟩ := Lowered.bind_eq_ok.mp lowered
      obtain rfl := Except.ok.inj lowered
      exact .evaluate span valued

theorem lowerCodes_cons {stmt : Stmt} {rest : List Stmt} {codes : List Code}
    (lowered : lowerCodes context (stmt :: rest) = .ok codes) :
    ∃ first later, lowerCode context stmt = .ok first ∧ lowerCodes context rest = .ok later ∧
      codes = first :: later := by
  rw [lowerCodes] at lowered
  obtain ⟨first, here, lowered⟩ := Lowered.bind_eq_ok.mp lowered
  obtain ⟨later, there, lowered⟩ := Lowered.bind_eq_ok.mp lowered
  exact ⟨first, later, here, there, (Except.ok.inj lowered).symm⟩

/-! ### What is kept -/

/-- The writes of optional expressions are kept. -/
theorem allKept_lowerOptionTree {value : Option Expr} {tree : Option Tree}
    (lowered : lowerOptionTree context value = .ok tree) :
    AllKept context.receiver (optionPlaces context.table.isMutating value) (Tree.optionCalls tree) := by
  cases value with
  | none => exact .nil
  | some value =>
      obtain ⟨tree, there, lowered⟩ := Lowered.bind_eq_ok.mp lowered
      obtain rfl := Except.ok.inj lowered
      exact allKept_lowerTree value there

/-- A variable is bound under its name, and may be changed exactly if the body writes to a place of it. -/
structure Binds (context : Context) (name : String) (binding : Binding) : Prop where
  spelled : spelledName name = .ok binding.name
  isMutable : binding.isMutable = true ↔
    ∃ write ∈ bodyPlaces context.table.isMutating context.body, root? write.place = some (.variable name)

theorem Binds.eq_mk {name word : String} {binding : Binding} {isMutable : Bool}
    (bound : Binds context name binding) (spelled : spelledName name = .ok word)
    (same : binding.isMutable = isMutable) : binding = ⟨isMutable, word⟩ := by
  obtain rfl := Except.ok.inj (bound.spelled.symm.trans spelled)
  rw [← same]

theorem isMutable_iff {name : String} : context.isMutable name = true ↔
    ∃ write ∈ bodyPlaces context.table.isMutating context.body,
      root? write.place = some (.variable name) := by
  rw [Context.isMutable, writesVariable, List.contains_iff_mem, mem_bodyWrites]

/-- A statement has been lowered with all of its writes and all of its variables. -/
structure Follows (context : Context) (stmt : Stmt) (code : Code) : Prop where
  writes : AllKept context.receiver (stmtPlaces context.table.isMutating stmt) code.writes
  bindings : List.Forall₂ (Binds context) (stmtLets stmt) code.declared
  choice : Code.isElseIf [code] = isChoice stmt

/-- A body has been lowered with all of its writes and all of its variables. -/
structure FollowsAll (context : Context) (body : List Stmt) (code : List Code) : Prop where
  writes : AllKept context.receiver (bodyPlaces context.table.isMutating body) (Code.writesAll code)
  bindings : List.Forall₂ (Binds context) (bodyLets body) (Code.declaredAll code)

mutual

theorem follows_lowerCode : (stmt : Stmt) → ∀ {code}, lowerCode context stmt = .ok code →
    Follows context stmt code
  | .declare _ _ _ _, _, lowered => by
      cases becomes_of_lowerCode lowered with
      | declare _ spelled _ valued =>
          exact ⟨allKept_lowerOptionTree valued, .cons ⟨spelled, isMutable_iff⟩ .nil, rfl⟩
  | .assign _ target value, _, lowered => by
      cases becomes_of_lowerCode lowered with
      | @assign _ _ place tree _ placed valued =>
          refine ⟨?_, .nil, rfl⟩
          have kept : AllKept context.receiver (exprPlaces context.table.isMutating target ++
              exprPlaces context.table.isMutating value) (place.calls ++ tree.calls) :=
            (allKept_lowerTree target placed).append (allKept_lowerTree value valued)
          rw [stmtPlaces, List.append_assoc]
          split
          · next rooted =>
            obtain ⟨root, rooted⟩ := Option.isSome_iff_exists.mp rooted
            exact .cons (.assign (placeOf_lowerTree target rooted placed)) kept
          · exact .cons_right kept
  | .giveBack _ _, _, lowered => by
      cases becomes_of_lowerCode lowered with
      | finish => exact ⟨.nil, .nil, rfl⟩
      | leave => exact ⟨.nil, .nil, rfl⟩
      | giveBack _ _ valued => exact ⟨allKept_lowerTree _ valued, .nil, rfl⟩
  | .choose _ condition thenBody none, _, lowered => by
      cases becomes_of_lowerCode lowered with
      | choose _ tested yes =>
          have inside := follows_lowerCodes thenBody yes
          exact ⟨(allKept_lowerTree condition tested).append inside.writes, inside.bindings, rfl⟩
  | .choose _ condition thenBody (some elseBody), _, lowered => by
      cases becomes_of_lowerCode lowered with
      | chooseElse _ tested yes no =>
          have inside := follows_lowerCodes thenBody yes
          have otherwise := follows_lowerCodes elseBody no
          exact ⟨((allKept_lowerTree condition tested).append inside.writes).append otherwise.writes,
            List.rel_append inside.bindings otherwise.bindings, rfl⟩
  | .repeatWhile _ condition body, _, lowered => by
      cases becomes_of_lowerCode lowered with
      | repeatWhile _ tested within =>
          have inside := follows_lowerCodes body within
          exact ⟨(allKept_lowerTree condition tested).append inside.writes, inside.bindings, rfl⟩
  | .evaluate _ expr, _, lowered => by
      cases becomes_of_lowerCode lowered with
      | evaluate _ valued => exact ⟨allKept_lowerTree expr valued, .nil, rfl⟩

theorem follows_lowerCodes : (body : List Stmt) → ∀ {code}, lowerCodes context body = .ok code →
    FollowsAll context body code
  | [], _, lowered => by
      obtain rfl := Except.ok.inj lowered
      exact ⟨.nil, .nil⟩
  | stmt :: rest, _, lowered => by
      obtain ⟨first, later, here, there, rfl⟩ := lowerCodes_cons lowered
      have own := follows_lowerCode stmt here
      have behind := follows_lowerCodes rest there
      exact ⟨own.writes.append behind.writes, List.rel_append own.bindings behind.bindings⟩

end

/-! ### The tokens of lowered code -/

theorem lowerDeclare_eq (span : Span) (name : String) (type : Option TypeRef) (value : Option Expr) :
    lowerDeclare context name type value =
      (lowerCode context (.declare span name type value)).map Code.tokens := by
  rw [lowerDeclare, lowerCode, identifier_eq]
  have bound (word : String) : binding context name (.word word) =
      (Binding.mk (context.isMutable name) word).tokens := by
    rw [binding, Binding.tokens]
  cases spelledName name with
  | error fault => rfl
  | ok word =>
      cases lowerTypeSuffix type with
      | error fault => rfl
      | ok type =>
          cases value with
          | none => exact congrArg Except.ok (by rw [bound, Code.tokens])
          | some value =>
              rw [lowerOptionTree]
              simp only [lowerExpr_eq]
              cases lowerTree context .value value with
              | error fault => rfl
              | ok tree => exact congrArg Except.ok (by rw [bound, Code.tokens])

theorem lowerGiveBack_eq (value : Option Expr) :
    lowerGiveBack context value = (giveBackCode context value).map Code.tokens := by
  cases value with
  | none =>
      rw [lowerGiveBack, giveBackCode]
      split <;> rfl
  | some value =>
      rw [lowerGiveBack, giveBackCode]
      split
      · rfl
      · rw [lowerExpr_eq]
        cases lowerTree context .value value <;> rfl

/-- Code behind an `else`. -/
def elseTokens (code : List Code) : Tokens :=
  if Code.isElseIf code then Code.tokensAll code else Tokens.inBraces (Code.tokensAll code)

mutual

theorem lowerStmt_eq : (stmt : Stmt) →
    lowerStmt context stmt = (lowerCode context stmt).map Code.tokens
  | .declare span name type value => by
      rw [lowerStmt]
      exact lowerDeclare_eq span name type value
  | .assign _ target value => by
      rw [lowerStmt, lowerCode, lowerExpr_eq, lowerExpr_eq]
      cases lowerTree context .place target with
      | error fault => rfl
      | ok target => cases lowerTree context .value value <;> rfl
  | .giveBack _ value => by
      rw [lowerStmt, lowerCode]
      exact lowerGiveBack_eq value
  | .choose _ condition thenBody none => by
      rw [lowerStmt, lowerCode, lowerExpr_eq, lowerBody_eq thenBody]
      cases lowerTree context .value condition with
      | error fault => rfl
      | ok condition => cases lowerCodes context thenBody <;> rfl
  | .choose _ condition thenBody (some elseBody) => by
      rw [lowerStmt, lowerCode, lowerExpr_eq, lowerBody_eq thenBody, lowerElse_eq elseBody]
      cases lowerTree context .value condition with
      | error fault => rfl
      | ok condition =>
          cases lowerCodes context thenBody with
          | error fault => rfl
          | ok thenCode => cases lowerCodes context elseBody <;> rfl
  | .repeatWhile _ condition body => by
      rw [lowerStmt, lowerCode, lowerExpr_eq, lowerBody_eq body]
      cases lowerTree context .value condition with
      | error fault => rfl
      | ok condition => cases lowerCodes context body <;> rfl
  | .evaluate _ expr => by
      rw [lowerStmt, lowerCode, lowerExpr_eq]
      cases lowerTree context .value expr <;> rfl

theorem lowerBody_eq : (body : List Stmt) →
    lowerBody context body = (lowerCodes context body).map Code.tokensAll
  | [] => rfl
  | stmt :: rest => by
      rw [lowerBody, lowerCodes, lowerStmt_eq stmt, lowerBody_eq rest]
      cases lowerCode context stmt with
      | error fault => rfl
      | ok first => cases lowerCodes context rest <;> rfl

theorem lowerElse_eq : (body : List Stmt) →
    lowerElse context body = (lowerCodes context body).map elseTokens
  | [] => rfl
  | [only] => by
      rw [lowerElse, lowerCodes, lowerCodes, lowerStmt_eq only]
      cases lowered : lowerCode context only with
      | error fault => rfl
      | ok code =>
          refine congrArg Except.ok ?_
          rw [elseTokens, (follows_lowerCode only lowered).choice, Code.tokensAll, Code.tokensAll,
            List.append_nil]
  | first :: second :: rest => by
      rw [lowerElse, lowerCodes, lowerCodes, lowerStmt_eq first, lowerStmt_eq second,
        lowerBody_eq rest]
      cases lowerCode context first with
      | error fault => rfl
      | ok first =>
          cases lowerCode context second with
          | error fault => rfl
          | ok second =>
              cases lowerCodes context rest with
              | error fault => rfl
              | ok rest =>
                  refine congrArg Except.ok ?_
                  simp [elseTokens, Code.isElseIf, Code.tokensAll]

end

theorem exists_code_of_lowerBody {body : List Stmt} {tokens : Tokens}
    (lowered : lowerBody context body = .ok tokens) :
    ∃ code, lowerCodes context body = .ok code ∧ Code.tokensAll code = tokens := by
  rw [lowerBody_eq] at lowered
  exact Lowered.map_eq_ok.mp lowered

end DataClass.Lowering
