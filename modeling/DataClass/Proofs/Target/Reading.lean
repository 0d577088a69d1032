import DataClass.Proofs.Target.Tree
namespace DataClass.Target

open Lowering

/-! The reader of the target language reads every tree that has a shape from the tokens of the tree. -/

section Tokens

variable {signs : String} {rest : Tokens}

@[simp] theorem accept?_mark : accept? signs (.mark signs :: rest) = some rest := if_pos rfl

theorem accept?_of_head (other : rest.head? ≠ some (.mark signs)) : accept? signs rest = none := by
  unfold accept?
  split
  · exact if_neg fun same => other (by rw [same]; rfl)
  · rfl

theorem ofSpelling?_spelling (op : BinaryOp) : ofSpelling? (spelling op) = some op := by
  cases op <;> decide

theorem ofSpelling?_sign (sign : Sign) : Sign.ofSpelling? sign.spelling = some sign := by
  cases sign <;> decide

theorem operatorAt?_spelling (level : Nat) (op : BinaryOp) :
    operatorAt? level (.mark (spelling op) :: rest) =
      if strength op = level then some (op, rest) else none := by
  simp only [operatorAt?, ofSpelling?_spelling, Option.filter_some, beq_iff_eq]
  split <;> rfl

theorem name?_word {name : String} (named : isName name = true) :
    name? (.word name :: rest) = some (name, rest) := if_pos named

end Tokens

/-- Nothing in front of the tokens makes the expression before them longer but an operator of none of
the levels. -/
structure Ends (levels : List Nat) (rest : Tokens) : Prop where
  operators : ∀ level ∈ levels, operatorAt? level rest = none
  point : rest.head? ≠ some (.mark ".")
  call : rest.head? ≠ some (.mark "(")
  path : rest.head? ≠ some (.mark "::")

namespace Ends

variable {levels : List Nat} {rest : Tokens}

theorem mono {fewer : List Nat} (ends : Ends levels rest) (inside : ∀ level ∈ fewer, level ∈ levels) :
    Ends fewer rest :=
  { ends with operators := fun level among => ends.operators level (inside level among) }

theorem empty : Ends levels [] := ⟨fun _ _ => rfl, by simp, by simp, by simp⟩

theorem operator {op : BinaryOp} (looser : ∀ level ∈ levels, strength op < level) :
    Ends levels (.mark (spelling op) :: rest) := by
  refine ⟨fun level among => ?_, ?_, ?_, ?_⟩
  · rw [operatorAt?_spelling]
    exact if_neg (Nat.ne_of_lt (looser level among))
  all_goals
    cases op <;> simp [spelling]

theorem comma : Ends levels (.mark "," :: rest) :=
  ⟨fun _ _ => rfl, by simp, by simp, by simp⟩

theorem close : Ends levels (.mark ")" :: rest) :=
  ⟨fun _ _ => rfl, by simp, by simp, by simp⟩

end Ends

/-- A reader reads a tree from its tokens where these end. -/
def Reads (reader : Reading Tree) (levels : List Nat) (tree : Tree) : Prop :=
  ∀ rest, Ends levels rest → reader (tree.tokens ++ rest) = some (tree, rest)

namespace Tree

variable {tree : Tree}

/-- What an operand without a sign begins with. -/
theorem Shaped.head_operand (shaped : tree.Shaped) (tight : Sign.strength < tree.strength) :
    ∃ first others, tree.tokens = first :: others ∧ ∀ signs, first = .mark signs → signs = "(" := by
  induction shaped with
  | unary sign below inside _ => exact absurd tight (Nat.lt_irrefl _)
  | binary op fits below first second _ _ =>
      exact absurd tight (Nat.lt_asymm (strength_lt_sign op))
  | field below named inside ih =>
      obtain ⟨first, others, same, operand⟩ := ih below
      exact ⟨first, _, by rw [tokens, same]; rfl, operand⟩
  | call below called inside given ih _ =>
      obtain ⟨first, others, same, operand⟩ := ih below
      exact ⟨first, _, by rw [tokens, same]; rfl, operand⟩
  | methodCall below named inside given ih _ =>
      obtain ⟨first, others, same, operand⟩ := ih below
      exact ⟨first, _, by rw [tokens, same]; rfl, operand⟩
  | paren inside _ => exact ⟨_, _, rfl, fun signs same => by simpa using same.symm⟩
  | _ => exact ⟨_, _, rfl, nofun⟩

/-- No expression begins with a closing parenthesis. -/
theorem Shaped.head (shaped : tree.Shaped) :
    ∃ first others, tree.tokens = first :: others ∧ first ≠ .mark ")" := by
  have whole := shaped
  induction shaped with
  | unary sign below inside _ => exact ⟨_, _, rfl, by cases sign <;> simp [Sign.spelling]⟩
  | binary op fits below first second ih _ =>
      obtain ⟨head, others, same, other⟩ := ih first
      exact ⟨head, _, by rw [tokens, same]; rfl, other⟩
  | _ =>
      obtain ⟨head, others, same, operand⟩ := whole.head_operand (Nat.lt_succ_self _)
      exact ⟨head, others, same, fun closes => by simpa using operand _ closes⟩

end Tree

theorem segments_tokens {names : List String} {rest : Tokens}
    (named : ∀ name ∈ names, isName name = true) (ends : rest.head? ≠ some (.mark "::")) :
    segments (Tree.segmentTokens names ++ rest) = some (names, rest) := by
  induction names with
  | nil =>
      change segments rest = _
      unfold segments
      split
      · exact if_neg fun same => ends (by rw [same]; rfl)
      · rfl
  | cons name names ih =>
      obtain ⟨here, later⟩ := List.forall_mem_cons.mp named
      change segments (.mark "::" :: .word name :: (Tree.segmentTokens names ++ rest)) = _
      rw [segments, if_pos rfl, if_pos here, ih later]
      rfl

theorem wordOperand_path {first : String} {names : List String} {rest : Tokens}
    (opens : opensPath first = true) (named : ∀ name ∈ names, isName name = true)
    (ends : rest.head? ≠ some (.mark "::")) :
    wordOperand first (Tree.segmentTokens names ++ rest) = some (.path first names, rest) := by
  have notTrue : first ≠ "true" := fun same => absurd (same ▸ opens) (by decide)
  have notFalse : first ≠ "false" := fun same => absurd (same ▸ opens) (by decide)
  rw [wordOperand, if_neg notTrue, if_neg notFalse, if_pos opens, segments_tokens named ends]
  rfl

section Inside

variable {inner : Reading Tree} {bound : Nat}

/-- Reading every tree with fewer tokens than a bound. -/
def ReadsBelow (reader : Reading Tree) (bound : Nat) : Prop :=
  ∀ tree : Tree, tree.Shaped → tree.tokens.length < bound → Reads reader strengths tree

theorem argumentsFrom_tokens (reads : ReadsBelow inner bound) {arguments : List Tree} {rest : Tokens}
    {fuel : Nat} (shaped : ∀ argument ∈ arguments, argument.Shaped)
    (small : (Tokens.commaSeparated (Tree.tokensAll arguments)).length < bound)
    (enough : (Tokens.commaSeparated (Tree.tokensAll arguments)).length < fuel) :
    argumentsFrom inner fuel
        (Tokens.commaSeparated (Tree.tokensAll arguments) ++ .mark ")" :: rest) =
      some (arguments, rest) := by
  induction arguments generalizing fuel with
  | nil =>
      obtain ⟨fuel, rfl⟩ := Nat.exists_eq_succ_of_ne_zero (Nat.ne_of_gt (Nat.zero_lt_of_lt enough))
      change argumentsFrom inner (fuel + 1) (.mark ")" :: rest) = _
      rw [argumentsFrom, accept?_mark]
  | cons first others ih =>
      obtain ⟨fuel, rfl⟩ := Nat.exists_eq_succ_of_ne_zero (Nat.ne_of_gt (Nat.zero_lt_of_lt enough))
      obtain ⟨here, later⟩ := List.forall_mem_cons.mp shaped
      obtain ⟨head, tail, begins, open'⟩ := here.head
      have opened (behind : Tokens) : accept? ")" (first.tokens ++ behind) = none :=
        accept?_of_head (by rw [begins]; simpa using open')
      cases others with
      | nil =>
          change argumentsFrom inner (fuel + 1) (first.tokens ++ .mark ")" :: rest) = _
          have read := reads first here small (.mark ")" :: rest) .close
          rw [argumentsFrom, opened, read]
          rfl
      | cons second others =>
          have split : Tokens.commaSeparated (Tree.tokensAll (first :: second :: others)) =
              first.tokens ++
                .mark "," :: Tokens.commaSeparated (Tree.tokensAll (second :: others)) :=
            List.append_assoc ..
          rw [split, List.length_append, List.length_cons] at small enough
          have read := reads first here (by omega) (.mark "," ::
            (Tokens.commaSeparated (Tree.tokensAll (second :: others)) ++ .mark ")" :: rest)) .comma
          have behind := @ih fuel later (by omega) (by omega)
          rw [split, List.append_assoc, List.cons_append, argumentsFrom, opened, read]
          simp only [Option.bind_eq_bind, Option.bind_some, accept?_mark, behind, Option.pure_def]

theorem argumentsWith_tokens (reads : ReadsBelow inner bound) {arguments : List Tree} (rest : Tokens)
    (shaped : ∀ argument ∈ arguments, argument.Shaped)
    (small : (Tokens.commaSeparated (Tree.tokensAll arguments)).length < bound) :
    argumentsWith inner (Tokens.commaSeparated (Tree.tokensAll arguments) ++ .mark ")" :: rest) =
      some (arguments, rest) :=
  argumentsFrom_tokens reads shaped small (by rw [List.length_append]; omega)

/-- Reading an operand with what is written behind it comes to the point where a tree is read, and what
is left is looked at next. -/
def ComesTo (inner : Reading Tree) (tokens rest : Tokens) (tree : Tree) : Prop :=
  ∃ fuel, rest.length < fuel ∧ accessedWith inner tokens = accesses inner fuel tree rest

namespace ComesTo

variable {tokens rest : Tokens} {name : String} {base : Tree} {arguments : List Tree}

/-- What is left is enough for one more turn. -/
theorem exists_turn {next : TargetToken} (before : ComesTo inner tokens (next :: rest) base) :
    ∃ fuel, rest.length < fuel ∧
      accessedWith inner tokens = accesses inner (fuel + 1) base (next :: rest) := by
  obtain ⟨fuel, enough, reached⟩ := before
  obtain ⟨fuel, rfl⟩ := Nat.exists_eq_succ_of_ne_zero (Nat.ne_of_gt (Nat.zero_lt_of_lt enough))
  exact ⟨fuel, Nat.lt_of_succ_lt_succ enough, reached⟩

theorem field (before : ComesTo inner tokens (.mark "." :: .word name :: rest) base)
    (named : isName name = true) (called : rest.head? ≠ some (.mark "(")) :
    ComesTo inner tokens rest (.field base name) := by
  obtain ⟨fuel, enough, reached⟩ := before.exists_turn
  refine ⟨fuel, Nat.lt_of_succ_lt enough, reached.trans ?_⟩
  simp only [accesses, accept?_mark, name?_word named, Option.bind_eq_bind, Option.bind_some,
    accept?_of_head called]

theorem call (reads : ReadsBelow inner bound)
    (before : ComesTo inner tokens
      (.mark "(" :: (Tokens.commaSeparated (Tree.tokensAll arguments) ++ .mark ")" :: rest)) base)
    (given : ∀ argument ∈ arguments, argument.Shaped)
    (small : (Tokens.commaSeparated (Tree.tokensAll arguments)).length < bound) :
    ComesTo inner tokens rest (.call base arguments) := by
  obtain ⟨fuel, enough, reached⟩ := before.exists_turn
  refine ⟨fuel, by simp at enough; omega, reached.trans ?_⟩
  have noPoint (behind : Tokens) : accept? "." (.mark "(" :: behind) = none :=
    accept?_of_head (by simp)
  simp only [accesses, noPoint, accept?_mark, argumentsWith_tokens reads rest given small,
    Option.bind_eq_bind, Option.bind_some]

theorem methodCall (reads : ReadsBelow inner bound)
    (before : ComesTo inner tokens (.mark "." :: .word name :: .mark "(" ::
      (Tokens.commaSeparated (Tree.tokensAll arguments) ++ .mark ")" :: rest)) base)
    (named : isName name = true) (given : ∀ argument ∈ arguments, argument.Shaped)
    (small : (Tokens.commaSeparated (Tree.tokensAll arguments)).length < bound) :
    ComesTo inner tokens rest (.methodCall base name arguments) := by
  obtain ⟨fuel, enough, reached⟩ := before.exists_turn
  refine ⟨fuel, by simp at enough; omega, reached.trans ?_⟩
  simp only [accesses, accept?_mark, name?_word named, Option.bind_eq_bind, Option.bind_some,
    argumentsWith_tokens reads rest given small]

end ComesTo

theorem comesTo_accessedWith (reads : ReadsBelow inner bound) {tree : Tree} (shaped : tree.Shaped)
    (tight : Sign.strength < tree.strength) (small : tree.tokens.length ≤ bound) {rest : Tokens}
    (path : rest.head? ≠ some (.mark "::"))
    (called : tree.isField = true → rest.head? ≠ some (.mark "(")) :
    ComesTo inner (tree.tokens ++ rest) rest tree := by
  induction shaped generalizing rest with
  | unary sign below inside _ => exact absurd tight (Nat.lt_irrefl _)
  | binary op fits below first second _ _ =>
      exact absurd tight (Nat.lt_asymm (strength_lt_sign op))
  | number text => exact ⟨_, Nat.lt_succ_self _, rfl⟩
  | string value => exact ⟨_, Nat.lt_succ_self _, rfl⟩
  | bool value => exact ⟨_, Nat.lt_succ_self _, by cases value <;> rfl⟩
  | path opens names =>
      refine ⟨_, Nat.lt_succ_self _, ?_⟩
      rw [accessedWith, Tree.tokens, List.cons_append, operandWith, wordOperand_path opens names path]
      rfl
  | @paren inner' inside _ =>
      have enough : inner'.tokens.length < bound := by
        simp [Tree.tokens, Tokens.inParens] at small
        omega
      have read := reads inner' inside enough (.mark ")" :: rest) .close
      refine ⟨_, Nat.lt_succ_self _, ?_⟩
      rw [accessedWith, Tree.tokens, Tokens.inParens, List.cons_append, List.cons_append,
        List.append_assoc, operandWith, if_pos rfl, List.singleton_append, read]
      simp only [Option.bind_eq_bind, Option.bind_some, accept?_mark, Option.pure_def]
  | field below named inside ih =>
      rw [Tree.tokens, List.length_append] at small
      rw [Tree.tokens, List.append_assoc]
      exact (ih below (by omega) (by simp) (by simp)).field named (called rfl)
  | @call callee arguments below notField inside given ih _ =>
      have sizes : callee.tokens.length ≤ bound ∧
          (Tokens.commaSeparated (Tree.tokensAll arguments)).length < bound := by
        simp [Tree.tokens, Tokens.inParens] at small
        omega
      rw [Tree.tokens, Tokens.inParens, List.append_assoc, List.cons_append, List.cons_append,
        List.append_assoc]
      exact .call reads (ih below sizes.1 (by simp) (by simp [notField])) given sizes.2
  | @methodCall receiver name arguments below named inside given ih _ =>
      have sizes : receiver.tokens.length ≤ bound ∧
          (Tokens.commaSeparated (Tree.tokensAll arguments)).length < bound := by
        simp [Tree.tokens, Tokens.inParens] at small
        omega
      rw [Tree.tokens, Tokens.inParens, List.append_assoc, List.cons_append, List.cons_append,
        List.cons_append, List.cons_append, List.append_assoc]
      exact .methodCall reads (ih below sizes.1 (by simp) (by simp)) named given sizes.2

theorem reads_accessedWith (reads : ReadsBelow inner bound) {tree : Tree} (shaped : tree.Shaped)
    (tight : Sign.strength < tree.strength) (small : tree.tokens.length ≤ bound) :
    Reads (accessedWith inner) [] tree := by
  intro rest ends
  obtain ⟨fuel, enough, reached⟩ :=
    comesTo_accessedWith reads shaped tight small ends.path fun _ => ends.call
  obtain ⟨fuel, rfl⟩ := Nat.exists_eq_succ_of_ne_zero (Nat.ne_of_gt (Nat.zero_lt_of_lt enough))
  rw [reached, accesses, accept?_of_head ends.point, accept?_of_head ends.call]

theorem signed_of_head {operand : Reading Tree} {first : TargetToken} {others : Tokens}
    (open' : ∀ signs, first = .mark signs → signs = "(") :
    signed operand (first :: others) = operand (first :: others) := by
  cases first with
  | mark signs =>
      obtain rfl := open' signs rfl
      rfl
  | _ => rfl

theorem reads_signed (reads : ReadsBelow inner bound) {tree : Tree} (shaped : tree.Shaped)
    (tight : Sign.strength ≤ tree.strength) (small : tree.tokens.length ≤ bound) :
    Reads (signed (accessedWith inner)) [] tree := by
  intro rest ends
  -- An operand without a sign does not begin with one, so it is left to the reader of these.
  have unsigned {tree : Tree} (shaped : tree.Shaped) (tight : Sign.strength < tree.strength)
      (small : tree.tokens.length ≤ bound) :
      signed (accessedWith inner) (tree.tokens ++ rest) = some (tree, rest) := by
    obtain ⟨first, others, begins, open'⟩ := shaped.head_operand tight
    have read := reads_accessedWith reads shaped tight small rest ends
    rw [begins, List.cons_append] at read ⊢
    rw [signed_of_head open', read]
  have whole := shaped
  induction shaped with
  | @unary sign operand below inside ih =>
      have within : operand.tokens.length ≤ bound := Nat.le_of_succ_le small
      rw [Tree.tokens, List.cons_append, signed]
      simp only [ofSpelling?_sign, ih below within inside, Option.map_some]
  | binary op fits below first second _ _ =>
      exact absurd tight (Nat.not_le_of_lt (strength_lt_sign op))
  | _ => exact unsigned whole (Nat.lt_succ_self _) small

/-- Reading all trees up to a number of tokens that have on their outside, if any, a sign or an
operator of some levels. -/
def ReadsLevels (reader : Reading Tree) (levels : List Nat) (bound : Nat) : Prop :=
  ∀ tree : Tree, tree.Shaped → (Sign.strength ≤ tree.strength ∨ tree.strength ∈ levels) →
    tree.tokens.length ≤ bound → Reads reader levels tree

variable {operand : Reading Tree} {tighter : List Nat}

theorem known_of_tighter {level : Nat}
    (closed : ∀ other : BinaryOp, level < strength other → strength other ∈ tighter)
    {tree : Tree} (tight : level < tree.strength) :
    Sign.strength ≤ tree.strength ∨ tree.strength ∈ tighter := by
  cases tree with
  | binary left other right => exact .inr (closed other tight)
  | unary sign operand => exact .inl (Nat.le_refl _)
  | _ => exact .inl (Nat.le_succ _)

/-- Reading what stands on the left of an operator comes to the loop over the operators of that
strength. -/
theorem operatorsBehind_reaches {op : BinaryOp} (reads : ReadsLevels operand tighter bound)
    (above : ∀ level ∈ tighter, strength op < level)
    (closed : ∀ other : BinaryOp, strength op < strength other → strength other ∈ tighter)
    {left : Tree} (shaped : left.Shaped)
    (fits : strength op < left.strength ∨ chains op = true ∧ left.strength = strength op)
    (small : left.tokens.length ≤ bound) {rest : Tokens} (ends : Ends tighter rest) :
    ∃ fuel, rest.length < fuel ∧
      (do
        let (read, behind) ← operand (left.tokens ++ rest)
        operatorsBehind operand (strength op) (behind.length + 1) read behind) =
        operatorsBehind operand (strength op) fuel left rest := by
  have whole := shaped
  induction shaped generalizing rest with
  | @binary inside first second fitsInside tight shapedFirst shapedSecond ih _ =>
      rcases fits with looser | ⟨chained, here⟩
      · refine ⟨_, Nat.lt_succ_self _, ?_⟩
        rw [reads _ whole (known_of_tighter closed looser) small rest ends]
        rfl
      · have here : strength inside = strength op := here
        rw [Tree.tokens, List.length_append, List.length_cons] at small
        rw [chains_of_strength here, here] at fitsInside
        rw [here] at tight
        have ends' : Ends tighter (.mark (spelling inside) :: (second.tokens ++ rest)) :=
          .operator fun level among => by rw [here]; exact above level among
        obtain ⟨fuel, enough, reached⟩ := ih fitsInside (by omega) ends' shapedFirst
        obtain ⟨fuel, rfl⟩ := Nat.exists_eq_succ_of_ne_zero (Nat.ne_of_gt (Nat.zero_lt_of_lt enough))
        have read := reads second shapedSecond (known_of_tighter closed tight) (by omega) rest ends
        refine ⟨fuel, by simp at enough; omega, ?_⟩
        rw [Tree.tokens, List.append_assoc, List.cons_append]
        refine reached.trans ?_
        simp only [operatorsBehind, operatorAt?_spelling, here, if_true, read, Option.bind_eq_bind,
          Option.bind_some, chains_of_strength here, chained]
  | unary =>
      refine ⟨_, Nat.lt_succ_self _, ?_⟩
      rw [reads _ whole (.inl (Nat.le_refl _)) small rest ends]
      rfl
  | _ =>
      refine ⟨_, Nat.lt_succ_self _, ?_⟩
      rw [reads _ whole (.inl (Nat.le_succ _)) small rest ends]
      rfl

theorem readsLevels_binaryWith (operands : ReadsLevels operand [] bound) :
    ∀ levels : List Nat, levels.Pairwise (· < ·) → (∀ level ∈ levels, level < Sign.strength) →
      (∀ level ∈ levels, ∀ other : BinaryOp, level < strength other → strength other ∈ levels) →
      ReadsLevels (binaryWith operand levels) levels bound := by
  intro levels sorted loose closed
  induction levels with
  | nil => exact operands
  | cons level tighter ih =>
      obtain ⟨above, sorted⟩ := List.pairwise_cons.mp sorted
      have closedHere : ∀ other : BinaryOp, level < strength other → strength other ∈ tighter :=
        fun other further => (List.mem_cons.mp (closed level List.mem_cons_self other further)).resolve_left
          (Nat.ne_of_gt further)
      have closedTail : ∀ inside ∈ tighter, ∀ other : BinaryOp, inside < strength other →
          strength other ∈ tighter := fun inside among other further =>
        closedHere other (Nat.lt_trans (above inside among) further)
      have reads := ih sorted (fun inside among => loose inside (List.mem_cons_of_mem _ among))
        closedTail
      intro tree shaped known small rest ends
      have endsTighter := ends.mono fun inside => List.mem_cons_of_mem level
      change (do
        let (read, behind) ← binaryWith operand tighter (tree.tokens ++ rest)
        operatorsBehind (binaryWith operand tighter) level (behind.length + 1) read behind) = _
      -- Nothing at the end is an operator of this level, so the loop stops there.
      have stop (fuel : Nat) (read : Tree) :
          operatorsBehind (binaryWith operand tighter) level (fuel + 1) read rest =
            some (read, rest) := by
        rw [operatorsBehind, ends.operators level List.mem_cons_self]
      by_cases here : tree.strength = level
      · have looser := loose level List.mem_cons_self
        cases shaped with
        | @binary op first second fits tight shapedFirst shapedSecond =>
            obtain rfl : strength op = level := here
            rw [Tree.tokens, List.length_append, List.length_cons] at small
            have ends' : Ends tighter (.mark (spelling op) :: (second.tokens ++ rest)) :=
              .operator above
            obtain ⟨fuel, enough, reached⟩ := operatorsBehind_reaches reads above closedHere
              shapedFirst fits (by omega) ends'
            obtain ⟨fuel, rfl⟩ :=
              Nat.exists_eq_succ_of_ne_zero (Nat.ne_of_gt (Nat.zero_lt_of_lt enough))
            have read := reads second shapedSecond (known_of_tighter closedHere tight) (by omega)
              rest endsTighter
            rw [Tree.tokens, List.append_assoc, List.cons_append]
            refine reached.trans ?_
            simp only [operatorsBehind, operatorAt?_spelling, if_true, read, Option.bind_eq_bind,
              Option.bind_some, ends.operators _ List.mem_cons_self]
            obtain ⟨fuel, rfl⟩ :=
              Nat.exists_eq_succ_of_ne_zero (n := fuel) (by simp at enough; omega)
            rw [stop]
            cases chains op <;> rfl
        | unary => exact absurd here (Nat.ne_of_gt looser)
        | _ => exact absurd here (Nat.ne_of_gt (Nat.lt_succ_of_lt looser))
      · have known := known.imp_right fun among => (List.mem_cons.mp among).resolve_left here
        rw [reads tree shaped known small rest endsTighter]
        exact stop rest.length tree

end Inside

theorem mem_strengths (op : BinaryOp) : strength op ∈ strengths := by
  cases op <;> decide

theorem readsBelow_treeAt (depth : Nat) : ReadsBelow (treeAt depth) depth := by
  induction depth with
  | zero => exact fun _ _ small => absurd small (Nat.not_lt_zero _)
  | succ depth ih =>
      intro tree shaped small
      have known : Sign.strength ≤ tree.strength ∨ tree.strength ∈ strengths := by
        cases tree with
        | binary left op right => exact .inr (mem_strengths op)
        | unary => exact .inl (Nat.le_refl _)
        | _ => exact .inl (Nat.le_succ _)
      have operands : ReadsLevels (signed (accessedWith (treeAt depth))) [] depth :=
        fun tree shaped tight small => reads_signed ih shaped (tight.resolve_right List.not_mem_nil) small
      exact readsLevels_binaryWith operands strengths (by decide) (by decide)
        (fun _ _ other _ => mem_strengths other) tree shaped known (Nat.le_of_lt_succ small)

/-- Every tree that has a shape is what the target language reads from its tokens. -/
theorem read_tokens {tree : Tree} (shaped : tree.Shaped) : read tree.tokens = some tree := by
  have reads := readsBelow_treeAt (tree.tokens.length + 1) tree shaped (Nat.lt_succ_self _) [] .empty
  rw [List.append_nil] at reads
  rw [read, reads]

end DataClass.Target
