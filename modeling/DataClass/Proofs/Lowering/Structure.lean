import DataClass.Lowering.Expr
import DataClass.Proofs.Program.Parts
import DataClass.Proofs.Target.Reading
namespace DataClass.Lowering

open Target

/-! Lowering keeps the structure of expressions. The lowered tokens have no parentheses but those of
the program, and still the target language reads the tree that is lowered node by node. -/

/-! ### The lowered tree -/

/-- The spelling of an identifier that can be lowered. -/
def spelledName (name : String) : Lowered String :=
  if name == "_" || !isIdentifier name then .error (.invalidIdentifier name)
  else .ok (identifierSpelling name)

def signOf : UnaryOp → Sign
  | .negate => .negate
  | .not => .not

/-- A number with a minus sign in front of it, if it has one. -/
def numberTree (isNegative : Bool) (digits : String) : Tree :=
  if isNegative then .unary .negate (.number digits) else .number digits

def thisTree : Receiver → Lowered Tree
  | .borrowed => return .path "self" []
  | .built => return .path "this" []
  | .absent => throw .thisOutsideClass

/-- The tree of a call that builds a value of a class. -/
def constructionTree (info : ClassInfo) (arguments : List Tree) : Lowered Tree := do
  let name ← spelledName info.name
  if info.hasNew then return .call (.path name ["new"]) arguments
  else if arguments.isEmpty then return .call (.path name ["default"]) []
  else throw (.noConstructor info.name arguments.length)

mutual

/-- An expression of the target language for each node of an expression. -/
def lowerTree (context : Context) (usage : Usage) : Expr → Lowered Tree
  | .int _ value => return numberTree (value < 0) (toString value.natAbs)
  | .float _ value =>
      if value.isFinite then
        return numberTree value.isNegative (String.ofList (Binary64.ofRank value.rank).pointedText)
      else throw (.infiniteLiteral value)
  | .string _ value =>
      match usage with
      | .value => return .call (.path "String" ["from"]) [.string value]
      | .place => return .string value
  | .bool _ value => return .bool value
  | .null _ => return .path "None" []
  | .ident _ name => do return .path (← spelledName name) []
  | .this _ => thisTree context.receiver
  | .field span base name => do
      let base' ← lowerTree context .place base
      let read := Tree.field base' (← spelledName name)
      return if usage = .value && !context.isCopyField (.field span base name) then
          .methodCall read "clone" []
        else read
  | .call _ callee arguments => do
      let arguments ← lowerTrees context arguments
      match calledClass? context callee with
      | some info => constructionTree info arguments
      | none => do return .call (← lowerTree context .place callee) arguments
  | .methodCall _ receiver name arguments => do
      let receiver ← lowerTree context .place receiver
      let name ← spelledName name
      return .methodCall receiver name (← lowerTrees context arguments)
  | .unary _ op operand => do return .unary (signOf op) (← lowerTree context .value operand)
  | .binary _ left op right => do
      let left' ← lowerTree context .value left
      match rightOperand context left op right with
      | .literal value => return .binary left' .add (.string value)
      | .borrowed => do return .binary left' .add (.unary .borrow (← lowerTree context .place right))
      | .plain => do return .binary left' op (← lowerTree context .value right)
  | .paren _ inner => do return .paren (← lowerTree context usage inner)

def lowerTrees (context : Context) : List Expr → Lowered (List Tree)
  | [] => return []
  | expr :: rest => do
      let first ← lowerTree context .value expr
      let later ← lowerTrees context rest
      return first :: later

end

/-- A value is built by a call of one of two functions. -/
theorem exists_path_of_constructionTree {info : ClassInfo} {arguments : List Tree} {tree : Tree}
    (built : constructionTree info arguments = .ok tree) :
    ∃ word function, spelledName info.name = .ok word ∧ (function = "new" ∨ function = "default") ∧
      tree = .call (.path word [function]) arguments := by
  obtain ⟨word, spelled, built⟩ := Lowered.bind_eq_ok.mp built
  split at built
  · exact ⟨word, "new", spelled, .inl rfl, (Except.ok.inj built).symm⟩
  · split at built
    · next none =>
      obtain rfl := Except.ok.inj built
      exact ⟨word, "default", spelled, .inr rfl, by rw [List.isEmpty_iff.mp none]⟩
    · cases built

/-- The ways to lower an expression, one or more for each kind. The parts are lowered on their own. -/
inductive Grows (context : Context) : Usage → Expr → Tree → Prop where
  | int {usage : Usage} (span : Span) (value : Int) :
      Grows context usage (.int span value) (numberTree (value < 0) (toString value.natAbs))
  | float {usage : Usage} {value : Binary64} (span : Span) (finite : value.isFinite = true) :
      Grows context usage (.float span value)
        (numberTree value.isNegative (String.ofList (Binary64.ofRank value.rank).pointedText))
  | owned (span : Span) (value : String) :
      Grows context .value (.string span value) (.call (.path "String" ["from"]) [.string value])
  | literal (span : Span) (value : String) : Grows context .place (.string span value) (.string value)
  | bool {usage : Usage} (span : Span) (value : Bool) :
      Grows context usage (.bool span value) (.bool value)
  | null {usage : Usage} (span : Span) : Grows context usage (.null span) (.path "None" [])
  | ident {usage : Usage} {name word : String} (span : Span) (spelled : spelledName name = .ok word) :
      Grows context usage (.ident span name) (.path word [])
  | this {usage : Usage} {tree : Tree} (span : Span) (known : thisTree context.receiver = .ok tree) :
      Grows context usage (.this span) tree
  | field {usage : Usage} {base : Expr} {baseTree : Tree} {name word : String} (span : Span)
      (inside : lowerTree context .place base = .ok baseTree) (spelled : spelledName name = .ok word)
      (read : usage = .place ∨ context.isCopyField (.field span base name) = true) :
      Grows context usage (.field span base name) (.field baseTree word)
  | cloned {base : Expr} {baseTree : Tree} {name word : String} (span : Span)
      (inside : lowerTree context .place base = .ok baseTree) (spelled : spelledName name = .ok word)
      (owned : context.isCopyField (.field span base name) = false) :
      Grows context .value (.field span base name) (.methodCall (.field baseTree word) "clone" [])
  | construction {usage : Usage} {callee : Expr} {arguments : List Expr} {info : ClassInfo}
      {trees : List Tree} {tree : Tree} (span : Span) (given : lowerTrees context arguments = .ok trees)
      (called : calledClass? context callee = some info)
      (built : constructionTree info trees = .ok tree) :
      Grows context usage (.call span callee arguments) tree
  | call {usage : Usage} {callee : Expr} {arguments : List Expr} {calleeTree : Tree}
      {trees : List Tree} (span : Span) (given : lowerTrees context arguments = .ok trees)
      (called : calledClass? context callee = none)
      (inside : lowerTree context .place callee = .ok calleeTree) :
      Grows context usage (.call span callee arguments) (.call calleeTree trees)
  | methodCall {usage : Usage} {receiver : Expr} {arguments : List Expr} {name word : String}
      {receiverTree : Tree} {trees : List Tree} (span : Span)
      (inside : lowerTree context .place receiver = .ok receiverTree)
      (spelled : spelledName name = .ok word) (given : lowerTrees context arguments = .ok trees) :
      Grows context usage (.methodCall span receiver name arguments)
        (.methodCall receiverTree word trees)
  | unary {usage : Usage} {operand : Expr} {operandTree : Tree} (span : Span) (op : UnaryOp)
      (inside : lowerTree context .value operand = .ok operandTree) :
      Grows context usage (.unary span op operand) (.unary (signOf op) operandTree)
  | joined {usage : Usage} {left right : Expr} {op : BinaryOp} {leftTree : Tree} {value : String}
      (span : Span) (first : lowerTree context .value left = .ok leftTree)
      (how : rightOperand context left op right = .literal value) :
      Grows context usage (.binary span left op right) (.binary leftTree .add (.string value))
  | borrowed {usage : Usage} {left right : Expr} {op : BinaryOp} {leftTree rightTree : Tree}
      (span : Span) (first : lowerTree context .value left = .ok leftTree)
      (how : rightOperand context left op right = .borrowed)
      (second : lowerTree context .place right = .ok rightTree) :
      Grows context usage (.binary span left op right)
        (.binary leftTree .add (.unary .borrow rightTree))
  | binary {usage : Usage} {left right : Expr} {op : BinaryOp} {leftTree rightTree : Tree}
      (span : Span) (first : lowerTree context .value left = .ok leftTree)
      (how : rightOperand context left op right = .plain)
      (second : lowerTree context .value right = .ok rightTree) :
      Grows context usage (.binary span left op right) (.binary leftTree op rightTree)
  | paren {usage : Usage} {inner : Expr} {innerTree : Tree} (span : Span)
      (inside : lowerTree context usage inner = .ok innerTree) :
      Grows context usage (.paren span inner) (.paren innerTree)

/-- An expression that can be lowered is lowered in one of these ways. -/
theorem grows_of_lowerTree {context : Context} {usage : Usage} {expr : Expr} {tree : Tree}
    (lowered : lowerTree context usage expr = .ok tree) : Grows context usage expr tree := by
  cases expr with
  | int span value =>
      obtain rfl := Except.ok.inj lowered
      exact .int span value
  | float span value =>
      rw [lowerTree] at lowered
      split at lowered
      · next finite =>
        obtain rfl := Except.ok.inj lowered
        exact .float span finite
      · cases lowered
  | string span value =>
      cases usage <;> obtain rfl := Except.ok.inj lowered
      · exact .owned span value
      · exact .literal span value
  | bool span value =>
      obtain rfl := Except.ok.inj lowered
      exact .bool span value
  | null span =>
      obtain rfl := Except.ok.inj lowered
      exact .null span
  | ident span name =>
      obtain ⟨word, spelled, lowered⟩ := Lowered.bind_eq_ok.mp lowered
      obtain rfl := Except.ok.inj lowered
      exact .ident span spelled
  | this span => exact .this span lowered
  | field span base name =>
      rw [lowerTree] at lowered
      obtain ⟨baseTree, inside, lowered⟩ := Lowered.bind_eq_ok.mp lowered
      obtain ⟨word, spelled, lowered⟩ := Lowered.bind_eq_ok.mp lowered
      obtain rfl := Except.ok.inj lowered
      cases usage with
      | place => exact .field span inside spelled (.inl rfl)
      | value =>
          cases copied : context.isCopyField (.field span base name) with
          | true => exact .field span inside spelled (.inr copied)
          | false => exact .cloned span inside spelled copied
  | call span callee arguments =>
      rw [lowerTree] at lowered
      obtain ⟨trees, given, lowered⟩ := Lowered.bind_eq_ok.mp lowered
      split at lowered
      · next info called => exact .construction span given called lowered
      · next called =>
        obtain ⟨calleeTree, inside, lowered⟩ := Lowered.bind_eq_ok.mp lowered
        obtain rfl := Except.ok.inj lowered
        exact .call span given called inside
  | methodCall span receiver name arguments =>
      rw [lowerTree] at lowered
      obtain ⟨receiverTree, inside, lowered⟩ := Lowered.bind_eq_ok.mp lowered
      obtain ⟨word, spelled, lowered⟩ := Lowered.bind_eq_ok.mp lowered
      obtain ⟨trees, given, lowered⟩ := Lowered.bind_eq_ok.mp lowered
      obtain rfl := Except.ok.inj lowered
      exact .methodCall span inside spelled given
  | unary span op operand =>
      rw [lowerTree] at lowered
      obtain ⟨operandTree, inside, lowered⟩ := Lowered.bind_eq_ok.mp lowered
      obtain rfl := Except.ok.inj lowered
      exact .unary span op inside
  | binary span left op right =>
      rw [lowerTree] at lowered
      obtain ⟨leftTree, first, lowered⟩ := Lowered.bind_eq_ok.mp lowered
      split at lowered
      · next value how =>
        obtain rfl := Except.ok.inj lowered
        exact .joined span first how
      · next how =>
        obtain ⟨rightTree, second, lowered⟩ := Lowered.bind_eq_ok.mp lowered
        obtain rfl := Except.ok.inj lowered
        exact .borrowed span first how second
      · next how =>
        obtain ⟨rightTree, second, lowered⟩ := Lowered.bind_eq_ok.mp lowered
        obtain rfl := Except.ok.inj lowered
        exact .binary span first how second
  | paren span inner =>
      rw [lowerTree] at lowered
      obtain ⟨innerTree, inside, lowered⟩ := Lowered.bind_eq_ok.mp lowered
      obtain rfl := Except.ok.inj lowered
      exact .paren span inside

/-! ### Its tokens -/

theorem Lowered.map_eq_ok {α β : Type} {step : α → β} {lowered : Lowered α} {result : β} :
    lowered.map step = .ok result ↔ ∃ value, lowered = .ok value ∧ step value = result := by
  cases lowered with
  | error fault => exact ⟨nofun, nofun⟩
  | ok value => simp [Except.map]

theorem identifier_eq (name : String) :
    identifier name = (spelledName name).map TargetToken.word := by
  unfold identifier spelledName
  split <;> rfl

theorem exists_spelledName_of_identifier {name : String} {token : TargetToken}
    (named : identifier name = .ok token) :
    ∃ word, spelledName name = .ok word ∧ .word word = token := by
  rw [identifier_eq] at named
  exact Lowered.map_eq_ok.mp named

theorem tokens_numberTree (isNegative : Bool) (digits : String) :
    (numberTree isNegative digits).tokens =
      if isNegative then [.mark "-", .number digits] else [.number digits] := by
  cases isNegative <;> rfl

theorem isEmpty_tokensAll (trees : List Tree) : (Tree.tokensAll trees).isEmpty = trees.isEmpty := by
  cases trees <;> rfl

theorem length_tokensAll (trees : List Tree) : (Tree.tokensAll trees).length = trees.length := by
  rw [Tree.tokensAll_eq_map, List.length_map]

theorem lowerConstruction_eq (info : ClassInfo) (arguments : List Tree) :
    lowerConstruction info (Tree.tokensAll arguments) =
      (constructionTree info arguments).map Tree.tokens := by
  unfold lowerConstruction constructionTree
  rw [identifier_eq, isEmpty_tokensAll, length_tokensAll]
  cases spelledName info.name with
  | error fault => rfl
  | ok name =>
      cases info.hasNew with
      | true => rfl
      | false => cases arguments.isEmpty <;> rfl

variable (context : Context)

mutual

theorem lowerExpr_eq (usage : Usage) : (expr : Expr) →
    lowerExpr context usage expr = (lowerTree context usage expr).map Tree.tokens
  | .int _ value => by
      refine congrArg Except.ok ?_
      rw [tokens_numberTree, lowerInt]
      by_cases negative : value < 0 <;> simp [negative]
  | .float _ value => by
      rw [lowerExpr, lowerTree, lowerFloat]
      by_cases finite : value.isFinite = true
      · rw [if_pos finite, if_pos finite]
        refine congrArg Except.ok ?_
        rw [tokens_numberTree]
      · rw [if_neg finite, if_neg finite]
        rfl
  | .string _ _ => by cases usage <;> rfl
  | .bool _ true | .bool _ false | .null _ => rfl
  | .ident _ name => by
      rw [lowerExpr, lowerTree, identifier_eq]
      cases spelledName name <;> rfl
  | .this _ => by
      rw [lowerExpr, lowerTree]
      cases context.receiver <;> rfl
  | .field span base name => by
      rw [lowerExpr, lowerTree, lowerExpr_eq .place base, identifier_eq]
      cases lowerTree context .place base with
      | error fault => rfl
      | ok base' =>
          cases spelledName name with
          | error fault => rfl
          | ok name =>
              refine congrArg Except.ok ?_
              split
              · simp [cloned, Tree.tokens, Tree.tokensAll, Tokens.mark, Tokens.word, Tokens.commaSeparated, Tokens.separated]
              · simp [Tree.tokens]
  | .call _ callee arguments => by
      rw [lowerExpr, lowerTree, lowerExprs_eq arguments]
      cases lowerTrees context arguments with
      | error fault => rfl
      | ok arguments =>
          cases calledClass? context callee with
          | some info => exact lowerConstruction_eq info arguments
          | none =>
              simp only [lowerExpr_eq .place callee]
              cases lowerTree context .place callee <;> rfl
  | .methodCall _ receiver name arguments => by
      rw [lowerExpr, lowerTree, lowerExpr_eq .place receiver, identifier_eq, lowerExprs_eq arguments]
      cases lowerTree context .place receiver with
      | error fault => rfl
      | ok receiver =>
          cases spelledName name with
          | error fault => rfl
          | ok name => cases lowerTrees context arguments <;> rfl
  | .unary _ op operand => by
      rw [lowerExpr, lowerTree, lowerExpr_eq .value operand]
      cases lowerTree context .value operand <;> cases op <;> rfl
  | .binary _ left op right => by
      rw [lowerExpr, lowerTree, lowerExpr_eq .value left]
      cases lowerTree context .value left with
      | error fault => rfl
      | ok left' =>
          cases rightOperand context left op right with
          | literal value => rfl
          | borrowed =>
              simp only [lowerExpr_eq .place right]
              cases lowerTree context .place right <;> rfl
          | plain =>
              simp only [lowerExpr_eq .value right]
              cases lowerTree context .value right with
              | error fault => rfl
              | ok right' =>
                  refine congrArg Except.ok ?_
                  cases op <;> simp [Tree.tokens, Tokens.mark, spelling, BinaryOp.operator, Operator.spelling]
  | .paren _ inner => by
      rw [lowerExpr, lowerTree, lowerExpr_eq usage inner]
      cases lowerTree context usage inner <;> rfl

theorem lowerExprs_eq : (exprs : List Expr) →
    lowerExprs context exprs = (lowerTrees context exprs).map Tree.tokensAll
  | [] => rfl
  | expr :: rest => by
      rw [lowerExprs, lowerTrees, lowerExpr_eq .value expr, lowerExprs_eq rest]
      cases lowerTree context .value expr with
      | error fault => rfl
      | ok first => cases lowerTrees context rest <;> rfl

end

variable {context} in
theorem exists_tree_of_lowerExpr {usage : Usage} {expr : Expr} {tokens : Tokens}
    (lowered : lowerExpr context usage expr = .ok tokens) :
    ∃ tree, lowerTree context usage expr = .ok tree ∧ tree.tokens = tokens := by
  rw [lowerExpr_eq] at lowered
  exact Lowered.map_eq_ok.mp lowered

/-! ### Its shape -/

/-- A product, a quotient or a remainder without parentheses around it. -/
def isProduct : Expr → Bool
  | .binary _ _ op _ => [.mul, .div, .mod].contains op
  | _ => false

/-- Whether the sign that borrows is put in front of a product, of which it would take only the first
factor. -/
def borrowsProduct : Expr → Bool
  | .binary _ left op right =>
      match rightOperand context left op right with
      | .borrowed => isProduct right
      | .literal _ | .plain => false
  | _ => false

def BorrowsNoProduct (expr : Expr) : Prop :=
  ∀ part ∈ expr.parts, borrowsProduct context part = false

instance (expr : Expr) : Decidable (BorrowsNoProduct context expr) :=
  inferInstanceAs (Decidable (∀ part ∈ expr.parts, borrowsProduct context part = false))

/-- Numbers have no sign of their own. -/
def HasNoSign : Expr → Prop
  | .int _ value => 0 ≤ value
  | .float _ value => value.isNegative = false
  | _ => True

theorem hasNoSign_of_writable {expr : Expr} (writable : expr.Writable) : HasNoSign expr := by
  cases expr with
  | int span value =>
      obtain ⟨size, _, rfl⟩ := writable.lexical.head
      exact Int.natCast_nonneg size
  | float span value => exact writable.lexical.head.isNegative
  | _ => trivial

/-- What has to be known of an expression apart from its shape. -/
structure Plain (expr : Expr) : Prop where
  unsigned : ∀ part ∈ expr.parts, HasNoSign part
  apart : BorrowsNoProduct context expr

namespace Plain

variable {context : Context} {expr inner : Expr} {front rest : List Expr}

theorem inside (plain : Plain context expr) (within : ∀ part ∈ inner.parts, part ∈ expr.parts) :
    Plain context inner :=
  ⟨fun part held => plain.unsigned part (within part held),
    fun part held => plain.apart part (within part held)⟩

theorem only (plain : Plain context expr) (split : expr.parts = expr :: inner.parts) :
    Plain context inner :=
  plain.inside fun _ held => split ▸ List.mem_cons_of_mem _ held

theorem first (plain : Plain context expr) (split : expr.parts = expr :: (inner.parts ++ rest)) :
    Plain context inner :=
  plain.inside fun _ held => split ▸ List.mem_cons_of_mem _ (List.mem_append_left _ held)

theorem second (plain : Plain context expr) (split : expr.parts = expr :: (front ++ inner.parts)) :
    Plain context inner :=
  plain.inside fun _ held => split ▸ List.mem_cons_of_mem _ (List.mem_append_right _ held)

theorem argument {arguments : List Expr} (plain : Plain context expr)
    (split : expr.parts = expr :: (front ++ Expr.partsAll arguments)) (listed : inner ∈ arguments) :
    Plain context inner := by
  refine plain.inside fun _ held => split ▸ List.mem_cons_of_mem _ (List.mem_append_right _ ?_)
  rw [Expr.partsAll_eq_flatMap]
  exact List.mem_flatMap.mpr ⟨inner, listed, held⟩

end Plain

/-- How tightly the outside of the lowered tree binds. -/
def loweredStrength : Expr → Nat
  | .binary _ _ op _ => strength op
  | .unary _ _ _ => Sign.strength
  | _ => Sign.strength + 1

/-! The table of operators of the language and that of the target language put the operators in the
same order. -/

theorem strength_lt_of_precedence {op other : BinaryOp} (looser : op.precedence < other.precedence) :
    strength op < strength other := by
  revert looser
  cases op <;> cases other <;> decide

theorem strength_eq_of_precedence {op other : BinaryOp} (same : op.precedence = other.precedence) :
    strength op = strength other := by
  revert same
  cases op <;> cases other <;> decide

theorem chains_of_associativity {op : BinaryOp} (left : op.operator.associativity = .left) :
    chains op = true := by
  revert left
  cases op <;> decide

theorem sign_lt_loweredStrength {expr : Expr} (tight : Operator.bang.precedence < expr.tightness) :
    Sign.strength < loweredStrength expr := by
  cases expr with
  | binary span left op right => exact absurd tight (Nat.lt_asymm (Expr.bang_le_precedence op))
  | unary span op operand => exact absurd tight (Nat.lt_irrefl _)
  | _ => exact Nat.lt_succ_self _

theorem sign_le_loweredStrength {expr : Expr} (tight : Operator.bang.precedence ≤ expr.tightness) :
    Sign.strength ≤ loweredStrength expr := by
  cases expr with
  | binary span left op right => exact absurd tight (Nat.not_le_of_lt (Expr.bang_le_precedence op))
  | unary span op operand => exact Nat.le_refl _
  | _ => exact Nat.le_succ _

theorem strength_lt_loweredStrength {op : BinaryOp} {right : Expr}
    (tight : op.precedence < right.tightness) : strength op < loweredStrength right := by
  cases right with
  | binary span left other right => exact strength_lt_of_precedence tight
  | unary span sign operand => exact strength_lt_sign op
  | _ => exact Nat.lt_succ_of_lt (strength_lt_sign op)

/-- What stands behind a `+` without parentheses is a product, or binds as a sign does. -/
theorem sign_le_of_not_isProduct {right : Expr} (tight : BinaryOp.add.precedence < right.tightness)
    (single : isProduct right = false) : Sign.strength ≤ loweredStrength right := by
  cases right with
  | binary span left op right =>
      change BinaryOp.add.precedence < op.precedence at tight
      change [BinaryOp.mul, .div, .mod].contains op = false at single
      change Sign.strength ≤ strength op
      revert tight single
      cases op <;> decide
  | unary span sign operand => exact Nat.le_refl _
  | _ => exact Nat.le_succ _

theorem fits_loweredStrength {op : BinaryOp} {left : Expr} (fits : left.FitsLeft op) :
    strength op < loweredStrength left ∨
      chains op = true ∧ loweredStrength left = strength op := by
  refine fits.imp strength_lt_loweredStrength fun ⟨grouped, level⟩ =>
    ⟨chains_of_associativity grouped, ?_⟩
  have loose := Expr.bang_le_precedence op
  cases left with
  | binary span first other second => exact strength_eq_of_precedence level
  | unary span sign operand => exact absurd level (Nat.ne_of_gt loose)
  | _ => exact absurd level (Nat.ne_of_gt (Nat.lt_succ_of_lt loose))

/-! Reserved words get a mark in front or an underscore behind them, and neither makes another
reserved word of them. -/

theorem isReserved_identifierSpelling (name : String) :
    TargetWord.isReserved (identifierSpelling name) = false := by
  unfold identifierSpelling
  by_cases reserved : TargetWord.isReserved name = true
  · rw [if_pos reserved]
    by_cases raw : TargetWord.canBeRaw name = true
    · rw [if_pos raw]
      have unmarked : ∀ word ∈ TargetWord.all, word.toList.take 2 ≠ ['r', '#'] := by decide
      rw [← Bool.not_eq_true, TargetWord.isReserved, List.contains_iff_mem]
      exact fun listed => unmarked _ listed (by simp [String.toList_append])
    · rw [if_neg raw]
      have listed : name ∈ TargetWord.neverRaw := by
        simpa [TargetWord.canBeRaw] using raw
      have each : ∀ word ∈ TargetWord.neverRaw, TargetWord.isReserved (word ++ "_") = false := by
        decide
      exact each name listed
  · rw [if_neg reserved]
    exact Bool.not_eq_true _ ▸ reserved

theorem isName_of_spelledName {name spelled : String} (lowered : spelledName name = .ok spelled) :
    isName spelled = true := by
  unfold spelledName at lowered
  split at lowered
  · cases lowered
  · obtain rfl := Except.ok.inj lowered
    rw [isName, isReserved_identifierSpelling]
    rfl

theorem opensPath_of_isName {word : String} (named : isName word = true) : opensPath word = true := by
  rw [opensPath, named]
  rfl

/-- A tree with a shape that binds as tightly as the expression it is lowered from. -/
structure Lowers (expr : Expr) (tree : Tree) : Prop where
  shaped : tree.Shaped
  binds : tree.strength = loweredStrength expr
  access : tree.isField = true → expr.isAccess = true

variable {context}

/-- Only behind a `+` the right operand is written in another way. -/
theorem eq_add_of_rightOperand {left right : Expr} {op : BinaryOp} {how : RightOperand}
    (found : rightOperand context left op right = how) (changed : how ≠ .plain) : op = .add := by
  by_contra other
  exact changed (found.symm.trans (if_neg other))

theorem shaped_constructionTree {info : ClassInfo} {arguments : List Tree} {tree : Tree}
    (given : ∀ argument ∈ arguments, argument.Shaped)
    (built : constructionTree info arguments = .ok tree) :
    tree.Shaped ∧ tree.strength = Sign.strength + 1 ∧ tree.isField = false := by
  obtain ⟨word, function, spelled, known, rfl⟩ := exists_path_of_constructionTree built
  have named : isName function = true := by
    rcases known with rfl | rfl <;> decide
  have path : (Tree.path word [function]).Shaped :=
    .path (opensPath_of_isName (isName_of_spelledName spelled)) (by simpa using named)
  exact ⟨.call (Nat.lt_succ_self _) rfl path given, rfl, rfl⟩

theorem shaped_lowerTrees {exprs : List Expr}
    (each : ∀ expr ∈ exprs, ∀ tree, lowerTree context .value expr = .ok tree → tree.Shaped)
    {trees : List Tree} (lowered : lowerTrees context exprs = .ok trees) :
    ∀ tree ∈ trees, tree.Shaped := by
  induction exprs generalizing trees with
  | nil =>
      obtain rfl := Except.ok.inj lowered
      nofun
  | cons expr rest ih =>
      obtain ⟨first, here, lowered⟩ := Lowered.bind_eq_ok.mp lowered
      obtain ⟨later, there, lowered⟩ := Lowered.bind_eq_ok.mp lowered
      obtain rfl := Except.ok.inj lowered
      exact List.forall_mem_cons.mpr ⟨each expr List.mem_cons_self first here,
        ih (fun expr inside => each expr (List.mem_cons_of_mem _ inside)) there⟩

namespace Lowers

variable {expr inner left right : Expr} {tree leftTree rightTree : Tree} {trees : List Tree}
  {span : Span} {name spelled : String} {arguments : List Expr}

theorem path {first : String} {rest : List String} (opens : opensPath first = true)
    (names : ∀ segment ∈ rest, isName segment = true)
    (operand : loweredStrength expr = Sign.strength + 1) : Lowers expr (.path first rest) :=
  ⟨.path opens names, operand.symm, nofun⟩

theorem number {isNegative : Bool} {digits : String} (positive : isNegative = false)
    (operand : loweredStrength expr = Sign.strength + 1) :
    Lowers expr (numberTree isNegative digits) := by
  subst positive
  exact ⟨.number digits, operand.symm, nofun⟩

theorem owned {value : String} :
    Lowers (.string span value) (.call (.path "String" ["from"]) [.string value]) :=
  ⟨.call (Nat.lt_succ_self _) rfl (.path (by decide) (by decide)) (by simpa using .string value), rfl,
    nofun⟩

theorem this {receiver : Receiver} (lowered : thisTree receiver = .ok tree) :
    Lowers (.this span) tree := by
  cases receiver with
  | absent => cases lowered
  | borrowed | built =>
      obtain rfl := Except.ok.inj lowered
      exact .path (by decide) nofun rfl

theorem field (below : Lowers inner tree) (tight : Operator.bang.precedence < inner.tightness)
    (named : isName spelled = true) : Lowers (.field span inner name) (.field tree spelled) :=
  ⟨.field (below.binds ▸ sign_lt_loweredStrength tight) named below.shaped, rfl, fun _ => rfl⟩

theorem cloned (read : Lowers (.field span inner name) (.field tree spelled)) :
    Lowers (.field span inner name) (.methodCall (.field tree spelled) "clone" []) :=
  ⟨.methodCall (Nat.lt_succ_self _) (by decide) read.shaped nofun, rfl, nofun⟩

theorem construction {info : ClassInfo} (given : ∀ argument ∈ trees, argument.Shaped)
    (built : constructionTree info trees = .ok tree) : Lowers (.call span inner arguments) tree := by
  obtain ⟨shaped, binds, noField⟩ := shaped_constructionTree given built
  exact ⟨shaped, binds, fun isField => by rw [noField] at isField; cases isField⟩

theorem call (below : Lowers inner tree) (tight : Operator.bang.precedence < inner.tightness)
    (called : inner.isAccess = false) (given : ∀ argument ∈ trees, argument.Shaped) :
    Lowers (.call span inner arguments) (.call tree trees) := by
  refine ⟨.call (below.binds ▸ sign_lt_loweredStrength tight) ?_ below.shaped given, rfl, nofun⟩
  refine Bool.eq_false_iff.mpr fun isField => ?_
  rw [below.access isField] at called
  cases called

theorem methodCall (below : Lowers inner tree) (tight : Operator.bang.precedence < inner.tightness)
    (named : isName spelled = true) (given : ∀ argument ∈ trees, argument.Shaped) :
    Lowers (.methodCall span inner name arguments) (.methodCall tree spelled trees) :=
  ⟨.methodCall (below.binds ▸ sign_lt_loweredStrength tight) named below.shaped given, rfl, nofun⟩

theorem unary {op : UnaryOp} (below : Lowers inner tree)
    (tight : Operator.bang.precedence ≤ inner.tightness) :
    Lowers (.unary span op inner) (.unary (signOf op) tree) :=
  ⟨.unary _ (below.binds ▸ sign_le_loweredStrength tight) below.shaped, rfl, nofun⟩

/-- Whatever the right operand is written as, it only has to bind more tightly than the operator. -/
theorem binary {op : BinaryOp} (before : Lowers left leftTree) (fits : left.FitsLeft op)
    (tight : strength op < rightTree.strength) (shaped : rightTree.Shaped) :
    Lowers (.binary span left op right) (.binary leftTree op rightTree) :=
  ⟨.binary op (before.binds ▸ fits_loweredStrength fits) tight before.shaped shaped, rfl, nofun⟩

end Lowers

/-- The right operand is lowered in one of three ways, and only a sign that borrows could take too
little of it. -/
theorem lowers_binary {span : Span} {op : BinaryOp} {left right : Expr} {usage : Usage} {tree : Tree}
    (plain : Plain context (.binary span left op right)) (fits : left.FitsLeft op)
    (tight : op.precedence < right.tightness)
    (before : ∀ tree, lowerTree context .value left = .ok tree → Lowers left tree)
    (behind : ∀ usage tree, lowerTree context usage right = .ok tree → Lowers right tree)
    (lowered : lowerTree context usage (.binary span left op right) = .ok tree) :
    Lowers (.binary span left op right) tree := by
  cases grows_of_lowerTree lowered with
  | @joined _ _ _ _ leftTree value _ first how =>
      obtain rfl : op = .add := eq_add_of_rightOperand how nofun
      exact (before _ first).binary fits (Nat.lt_succ_of_lt (strength_lt_sign .add)) (.string value)
  | @borrowed _ _ _ _ leftTree rightTree _ first how second =>
      obtain rfl : op = .add := eq_add_of_rightOperand how nofun
      have after := behind .place rightTree second
      have single : isProduct right = false := by
        simpa [borrowsProduct, how] using plain.apart _ (Expr.mem_parts _)
      have operand : Sign.strength ≤ rightTree.strength :=
        after.binds ▸ sign_le_of_not_isProduct tight single
      exact (before _ first).binary fits (strength_lt_sign .add) (.unary .borrow operand after.shaped)
  | binary _ first how second =>
      have after := behind .value _ second
      exact (before _ first).binary fits (after.binds ▸ strength_lt_loweredStrength tight) after.shaped

/-- What is lowered from an expression that needs no parentheses but its own needs none either. -/
theorem lowers_lowerTree {expr : Expr} (shaped : expr.Shaped) (plain : Plain context expr)
    {usage : Usage} {tree : Tree} (lowered : lowerTree context usage expr = .ok tree) :
    Lowers expr tree := by
  induction shaped generalizing usage tree with
  | int span value =>
      cases grows_of_lowerTree lowered with
      | int =>
          have positive : 0 ≤ value := plain.unsigned _ (Expr.mem_parts _)
          exact .number (decide_eq_false (Int.not_lt.mpr positive)) rfl
  | float span value =>
      cases grows_of_lowerTree lowered with
      | float => exact .number (plain.unsigned _ (Expr.mem_parts _)) rfl
  | string span value =>
      cases grows_of_lowerTree lowered with
      | owned => exact .owned
      | literal => exact ⟨.string value, rfl, nofun⟩
  | bool span value =>
      cases grows_of_lowerTree lowered with
      | bool => exact ⟨.bool value, rfl, nofun⟩
  | null span =>
      cases grows_of_lowerTree lowered with
      | null => exact .path (by decide) nofun rfl
  | ident span name =>
      cases grows_of_lowerTree lowered with
      | ident _ spelled => exact .path (opensPath_of_isName (isName_of_spelledName spelled)) nofun rfl
  | this span =>
      cases grows_of_lowerTree lowered with
      | this _ known => exact .this known
  | field span name tight inside ih =>
      have read {baseTree : Tree} {word : String}
          (there : lowerTree context .place _ = .ok baseTree) (spelled : spelledName name = .ok word) :
          Lowers (.field span _ name) (.field baseTree word) :=
        (ih (plain.only rfl) there).field tight (isName_of_spelledName spelled)
      cases grows_of_lowerTree lowered with
      | field _ there spelled => exact read there spelled
      | cloned _ there spelled => exact (read there spelled).cloned
  | @call span callee arguments tight called inside given ih each =>
      have shaped {trees : List Tree} (lowered : lowerTrees context arguments = .ok trees) :
          ∀ tree ∈ trees, tree.Shaped :=
        shaped_lowerTrees (fun argument listed _ lowered =>
          (each argument listed (plain.argument rfl listed) lowered).shaped) lowered
      cases grows_of_lowerTree lowered with
      | construction _ given _ built => exact .construction (shaped given) built
      | call _ given _ there => exact (ih (plain.first rfl) there).call tight called (shaped given)
  | methodCall span name tight inside given ih each =>
      cases grows_of_lowerTree lowered with
      | methodCall _ there spelled given =>
          have shaped := shaped_lowerTrees (fun argument listed _ lowered =>
            (each argument listed (plain.argument rfl listed) lowered).shaped) given
          exact (ih (plain.first rfl) there).methodCall tight (isName_of_spelledName spelled) shaped
  | unary span op tight inside ih =>
      cases grows_of_lowerTree lowered with
      | unary _ _ there => exact (ih (plain.only rfl) there).unary tight
  | binary span op fits tight first second ih other =>
      exact lowers_binary plain fits tight (fun _ => ih (plain.first rfl))
        (fun _ _ => other (plain.second rfl)) lowered
  | paren span inside ih =>
      cases grows_of_lowerTree lowered with
      | paren _ there => exact ⟨.paren (ih (plain.only rfl) there).shaped, rfl, nofun⟩

/-- Lowering keeps the structure of every expression that has been read. Wherever it can be lowered,
the target language reads its tokens as the tree that is lowered node by node, provided no product
stands without parentheses where the sign that borrows is put in front of it. -/
theorem lowerExpr_read {source : String} {program : Program}
    (parsed : Program.ofSource source = .ok program) {expr : Expr} (listed : expr ∈ program.exprs)
    {context : Context} {usage : Usage} {tokens : Tokens}
    (lowered : lowerExpr context usage expr = .ok tokens) (apart : BorrowsNoProduct context expr) :
    ∃ tree, lowerTree context usage expr = .ok tree ∧ read tokens = some tree := by
  have writable := (Program.writable_of_ofSource parsed).exprs expr listed
  have plain : Plain context expr :=
    ⟨fun part inside => hasNoSign_of_writable (writable.parts part inside), apart⟩
  obtain ⟨tree, grown, rfl⟩ := exists_tree_of_lowerExpr lowered
  exact ⟨tree, grown, read_tokens (lowers_lowerTree writable.shaped plain grown).shaped⟩

/-- A context with a class that has a string and a number. -/
def itemContext : Context :=
  let info : ClassInfo :=
    ⟨"Item", [("name", builtinRef .string), ("count", builtinRef .int)], false, []⟩
  ⟨⟨[info], []⟩, some info, .borrowed, []⟩

/-- The tokens of `String::from("a") + &self.name == self.title(-1) && !(self.count - 1 < 2 * (3 + 4))`. -/
def itemTokens : Tokens :=
  .word "String" :: .mark "::" :: .word "from" :: (Tokens.inParens [.string "a"] ++
    .mark "+" :: .mark "&" :: .word "self" :: .mark "." :: .word "name" :: .mark "==" ::
    .word "self" :: .mark "." :: .word "title" :: (Tokens.inParens [.mark "-", .number "1"] ++
    .mark "&&" :: .mark "!" :: Tokens.inParens
      (.word "self" :: .mark "." :: .word "count" :: .mark "-" :: .number "1" :: .mark "<" ::
        .number "2" :: .mark "*" :: Tokens.inParens [.number "3", .mark "+", .number "4"])))

theorem lowerExpr_read_item :
    ∃ program expr tree,
      Program.ofSource
          "fn f()\x7breturn \"a\"+this.name==this.title(-1) && !(this.count-1<2*(3+4));\x7d" =
        .ok program ∧
      expr ∈ program.exprs ∧ lowerExpr itemContext .value expr = .ok itemTokens ∧
      BorrowsNoProduct itemContext expr ∧ lowerTree itemContext .value expr = .ok tree ∧
      read itemTokens = some tree := by
  obtain ⟨program, parsed, passed⟩ : ∃ program, Program.ofSource
        "fn f()\x7breturn \"a\"+this.name==this.title(-1) && !(this.count-1<2*(3+4));\x7d" =
      .ok program ∧ (program.exprs.any fun expr =>
        decide (lowerExpr itemContext .value expr = .ok itemTokens) &&
          decide (BorrowsNoProduct itemContext expr)) = true :=
    Program.exists_read _ (by decide +kernel)
  obtain ⟨expr, listed, lowers⟩ := List.any_eq_true.mp passed
  simp only [Bool.and_eq_true, decide_eq_true_eq] at lowers
  obtain ⟨tree, grown, reads⟩ := lowerExpr_read parsed listed lowers.1 lowers.2
  exact ⟨program, expr, tree, parsed, listed, lowers.1, lowers.2, grown, reads⟩

end DataClass.Lowering
