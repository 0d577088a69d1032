import DataClass.Grammar.Expr
import DataClass.Proofs.Grammar.Consuming
import DataClass.Proofs.Grammar.Shape
namespace DataClass.Grammar.Reader

/-! An expression that was read has a shape, and it is written with the tokens that were taken. -/

/-- A reader of expressions. -/
def SoundExpr (reader : Reader Expr) : Prop :=
  ∀ cursor, Consumes reader cursor (Exactly Expr.Shaped Expr.kinds)

/-- A reader of expressions that have on their outside, if any, a sign or an operator of some
precedences. -/
def SoundTight (reader : Reader Expr) (levels : List Nat) : Prop :=
  ∀ cursor, Consumes reader cursor (Exactly
    (fun expr => expr.Shaped ∧
      (Operator.bang.precedence ≤ expr.tightness ∨ expr.tightness ∈ levels))
    Expr.kinds)

variable {inner : Reader Expr} {cursor : Cursor}

theorem operand?_some {token : Token} {expr : Expr} (found : operand? token = some expr) :
    expr.Shaped ∧ Operator.bang.precedence < expr.tightness ∧ expr.isAccess = false ∧
      [token.kind] = expr.kinds ∧ token.kind ≠ .endOfFile := by
  obtain ⟨kind, span⟩ := token
  unfold operand? at found
  split at found
  all_goals cases found
  all_goals
    obtain rfl : kind = _ := by assumption
    refine ⟨by constructor, Nat.lt_succ_self _, rfl, rfl, by simp⟩

theorem consumes_operandWith (sound : SoundExpr inner) :
    Consumes (operandWith inner) cursor (Exactly
      (fun expr => expr.Shaped ∧ Operator.bang.precedence < expr.tightness ∧ expr.isAccess = false)
      Expr.kinds) := by
  refine consumes_current ?_
  split
  · next opening =>
      apply (consumes_advance opening (by simp)).bind
      intro _ next _ first
      apply (sound next).bind
      intro expr _ _ read
      apply (consumes_expect _ (by simp)).bind
      intro _ _ _ closing
      refine consumes_spanFrom _ fun span => consumes_pure ?_
      exact ⟨⟨.paren span read.1, Nat.lt_succ_self _, rfl⟩, by
        rw [first, read.2, closing, Expr.kinds]; simp⟩
  · split
    · next expr found =>
        obtain ⟨shaped, tight, access, same, more⟩ := operand?_some found
        refine (consumes_advance rfl more).bind fun _ _ _ first => consumes_pure ?_
        exact ⟨⟨shaped, tight, access⟩, by rw [first, ← same, List.append_nil]⟩
    · exact consumes_failExpected _

theorem consumes_argumentsWith (sound : SoundExpr inner) :
    Consumes (argumentsWith inner) cursor
      (Exactly (fun exprs => ∀ expr ∈ exprs, expr.Shaped)
        fun exprs => TokenKind.parenthesized (exprs.map Expr.kinds)) :=
  consumes_parenthesized _ _ sound

/-- Going through accesses keeps the shape. A name behind a point is never called: where a parenthesis
follows it, a call of a method has been read. -/
theorem consumes_accesses (sound : SoundExpr inner) (fuel : Nat) {base : Expr}
    (shaped : base.Shaped) (tight : Operator.bang.precedence < base.tightness)
    (free : base.isAccess = true → cursor.current.kind ≠ .punctuation .leftParen) :
    Consumes (accesses (argumentsWith inner) fuel base) cursor fun result taken =>
      (result.Shaped ∧ Operator.bang.precedence < result.tightness) ∧
        result.kinds = base.kinds ++ taken := by
  induction fuel generalizing base cursor with
  | zero => exact consumes_pure ⟨⟨shaped, tight⟩, by simp⟩
  | succ fuel ih =>
      refine consumes_accept_bind (by simp) (fun next => ?_) ?_
      · refine consumes_identifier.bind fun name next _ named => consumes_isNext ?_
        split
        · apply (consumes_argumentsWith sound).bind
          intro given _ _ arguments
          apply consumes_spanFrom _
          intro span
          refine (ih (.methodCall span name tight shaped arguments.1) (Nat.lt_succ_self _)
            (by simp [Expr.isAccess])).weaken fun result _ read => ⟨read.1, ?_⟩
          rw [read.2, named, arguments.2, Expr.kinds, Expr.kindsAll_eq_map]
          simp
        · next other =>
            apply consumes_spanFrom _
            intro span
            refine (ih (.field span name tight shaped) (Nat.lt_succ_self _)
              fun _ here => other (by rw [here]; exact BEq.rfl)).weaken
              fun result _ read => ⟨read.1, ?_⟩
            rw [read.2, named, Expr.kinds]
            simp
      · refine consumes_isNext ?_
        split
        · next here =>
            have called : base.isAccess = false :=
              Bool.eq_false_iff.mpr fun access => free access (eq_of_beq here)
            apply (consumes_argumentsWith sound).bind
            intro given _ _ arguments
            apply consumes_spanFrom _
            intro span
            refine (ih (.call span tight called shaped arguments.1) (Nat.lt_succ_self _)
              (by simp [Expr.isAccess])).weaken fun result _ read => ⟨read.1, ?_⟩
            rw [read.2, arguments.2, Expr.kinds, Expr.kindsAll_eq_map]
            simp
        · exact consumes_pure ⟨⟨shaped, tight⟩, by simp⟩

theorem consumes_accessedWith (sound : SoundExpr inner) :
    Consumes (accessedWith inner) cursor (Exactly
      (fun expr => expr.Shaped ∧ Operator.bang.precedence < expr.tightness) Expr.kinds) := by
  refine (consumes_operandWith sound).bind fun base next _ first => consumes_remaining ?_
  refine (consumes_accesses sound _ first.1.1 first.1.2.1
    (fun access => by rw [first.1.2.2] at access; cases access)).weaken
    fun result _ read => ⟨read.1, by rw [read.2, first.2]⟩

theorem unary?_some {kind : TokenKind} {op : UnaryOp} (found : unary? kind = some op) :
    kind = .operator op.operator := by
  cases kind with
  | operator sign =>
      have same := List.find?_some found
      rw [eq_of_beq same]
  | _ => cases found

theorem soundTight_signed {operand : Reader Expr} (fuel : Nat)
    (sound : ∀ cursor, Consumes operand cursor (Exactly
      (fun expr => expr.Shaped ∧ Operator.bang.precedence < expr.tightness) Expr.kinds)) :
    SoundTight (signed operand fuel) [] := by
  have bare (cursor : Cursor) : Consumes operand cursor (Exactly
      (fun expr => expr.Shaped ∧
        (Operator.bang.precedence ≤ expr.tightness ∨ expr.tightness ∈ []))
      Expr.kinds) :=
    (sound cursor).weaken fun _ _ read => ⟨⟨read.1.1, .inl (Nat.le_of_lt read.1.2)⟩, read.2⟩
  induction fuel with
  | zero => exact bare
  | succ fuel ih =>
      intro cursor
      refine consumes_current ?_
      split
      · exact bare cursor
      · next op found =>
          have sign := unary?_some found
          apply (consumes_advance sign (by simp)).bind
          intro _ next _ first
          refine (ih next).bind fun inner _ _ read => consumes_pure ⟨⟨?_, .inl (Nat.le_refl _)⟩, ?_⟩
          · exact .unary _ op (read.1.2.resolve_right List.not_mem_nil) read.1.1
          · rw [first, read.2, Expr.kinds]
            simp

theorem soundTight_signedWith (sound : SoundExpr inner) : SoundTight (signedWith inner) [] :=
  fun cursor => consumes_remaining
    (soundTight_signed _ (fun _ => consumes_accessedWith sound) cursor)

theorem binaryAt?_some {level : Nat} {kind : TokenKind} {op : BinaryOp}
    (found : binaryAt? level kind = some op) :
    kind = .operator op.operator ∧ op.precedence = level := by
  cases kind with
  | operator sign =>
      obtain ⟨known, same⟩ := Option.filter_eq_some_iff.mp found
      have sign := List.find?_some known
      exact ⟨by rw [eq_of_beq sign], eq_of_beq same⟩
  | _ => cases found

/-- What stands on the left of an operator of some precedence, if there is one. -/
def FitsLevel (expr : Expr) (level : Nat) : Prop :=
  ∀ op : BinaryOp, op.precedence = level → expr.FitsLeft op

theorem fitsLevel_join (left right : Expr) {op : BinaryOp}
    (groups : op.operator.associativity ≠ .none) :
    FitsLevel (left.join op right) op.precedence := fun _ level =>
  .inr ⟨(BinaryOp.associativity_of_precedence level).trans (BinaryOp.associativity_eq_left groups),
    level.symm⟩

theorem consumes_operatorsBehind {operand : Reader Expr} {level : Nat} {tighter : List Nat}
    (sound : SoundTight operand tighter) (above : ∀ other ∈ tighter, level < other)
    (loose : level < Operator.bang.precedence) (fuel : Nat) {left : Expr} (shaped : left.Shaped)
    (known : Operator.bang.precedence ≤ left.tightness ∨ left.tightness ∈ level :: tighter)
    (fits : FitsLevel left level) :
    Consumes (operatorsBehind operand level fuel left) cursor fun result taken =>
      (result.Shaped ∧
        (Operator.bang.precedence ≤ result.tightness ∨ result.tightness ∈ level :: tighter)) ∧
        result.kinds = left.kinds ++ taken := by
  induction fuel generalizing left cursor with
  | zero => exact consumes_pure ⟨⟨shaped, known⟩, by simp⟩
  | succ fuel ih =>
      refine consumes_currentKind ?_
      split
      · exact consumes_pure ⟨⟨shaped, known⟩, by simp⟩
      · next op found =>
          obtain ⟨sign, rfl⟩ := binaryAt?_some found
          apply (consumes_advance sign (by simp)).bind
          intro _ next _ first
          apply (sound next).bind
          intro right next _ read
          have tight : op.precedence < right.tightness :=
            read.1.2.elim (Nat.lt_of_lt_of_le loose) (above right.tightness)
          have joined : (left.join op right).Shaped :=
            .binary _ op (fits op rfl) tight shaped read.1.1
          have level : (left.join op right).tightness ∈ op.precedence :: tighter :=
            List.mem_cons_self
          have kinds : (left.join op right).kinds =
              left.kinds ++ .operator op.operator :: right.kinds := by
            rw [Expr.join, Expr.kinds]
          split
          · refine consumes_currentKind ?_
            split
            · exact consumes_pure ⟨⟨joined, .inr level⟩, by rw [kinds, first, read.2]; simp⟩
            · next found =>
                obtain ⟨sign, _⟩ := binaryAt?_some found
                exact (consumes_advance sign (by simp)).bind fun _ _ _ _ => consumes_fail _
          · next groups =>
              refine (ih joined (.inr level) (fitsLevel_join left right groups)).weaken
                fun result _ later => ⟨later.1, ?_⟩
              rw [later.2, kinds, first, read.2]
              simp

theorem soundTight_binaryWith {operand : Reader Expr} (sound : SoundTight operand []) :
    ∀ levels : List Nat, levels.Pairwise (· < ·) →
      (∀ level ∈ levels, level < Operator.bang.precedence) →
      SoundTight (binaryWith operand levels) levels := by
  intro levels sorted loose
  induction levels with
  | nil => exact sound
  | cons level tighter ih =>
      obtain ⟨above, sorted⟩ := List.pairwise_cons.mp sorted
      have reads := ih sorted fun inside among => loose inside (List.mem_cons_of_mem _ among)
      intro cursor
      refine (reads cursor).bind fun left next taken first => consumes_remaining ?_
      have fits : FitsLevel left level := fun op same => .inl (by
        rw [same]
        exact first.1.2.elim (Nat.lt_of_lt_of_le (loose level List.mem_cons_self))
          (above left.tightness))
      refine (consumes_operatorsBehind reads above (loose level List.mem_cons_self) _ first.1.1
        (first.1.2.imp_right (List.mem_cons_of_mem _)) fits).weaken
        fun result more read => ⟨read.1, by rw [read.2, first.2]⟩

theorem soundExpr_expressionAt (depth : Nat) : SoundExpr (expressionAt depth) := by
  induction depth with
  | zero => exact fun _ => consumes_failExpected _
  | succ depth ih =>
      intro cursor
      exact (soundTight_binaryWith (soundTight_signedWith ih) precedences (by decide) (by decide)
        cursor).weaken fun _ _ read => ⟨read.1.1, read.2⟩

theorem soundExpr_expression : SoundExpr expression := fun _ => by
  rw [expression]
  exact consumes_remaining (soundExpr_expressionAt _ _)

theorem consumes_expressionAfterEquals :
    Consumes expressionAfterEquals cursor
      (Exactly (fun value => ∀ found ∈ value, found.Shaped) Expr.equalsKinds) := by
  refine consumes_accept_bind (by simp) (fun next => ?_) (consumes_pure ⟨by simp, rfl⟩)
  refine (soundExpr_expression next).bind fun value _ taken read => consumes_pure ⟨?_, ?_⟩
  · simpa using read.1
  · rw [read.2, Expr.equalsKinds, List.append_nil]

end DataClass.Grammar.Reader
