import DataClass.Grammar.Expr
import DataClass.Proofs.Grammar.Shape
import DataClass.Proofs.Grammar.Taking
import DataClass.Proofs.Program.Erasure
namespace DataClass

namespace TokenKind

/-- Whether an operand without a sign may begin with the token. -/
def opensOperand : TokenKind → Bool
  | .int _ | .float _ | .string _ | .identifier _ => true
  | .keyword word => [.trueWord, .falseWord, .nullWord, .thisWord].contains word
  | .punctuation mark => mark == .leftParen
  | _ => false

/-- Whether an expression may begin with the token. -/
def opensExpr (kind : TokenKind) : Bool :=
  kind.opensOperand || kind == .operator .minus || kind == .operator .bang

end TokenKind

namespace Expr

variable {expr : Expr}

theorem bang_le_precedence (op : BinaryOp) : op.precedence < Operator.bang.precedence := by
  cases op <;> decide

theorem Shaped.opensOperand (shaped : expr.Shaped)
    (tight : Operator.bang.precedence < expr.tightness) :
    ∃ first others, expr.kinds = first :: others ∧ first.opensOperand = true := by
  induction shaped with
  | unary span op below inside _ => exact absurd tight (Nat.lt_irrefl _)
  | binary span op fits below first second _ _ =>
      exact absurd tight (Nat.lt_asymm (bang_le_precedence op))
  | field span name below inside ih =>
      obtain ⟨first, others, same, opens⟩ := ih below
      exact ⟨first, _, by rw [kinds, same]; rfl, opens⟩
  | call span below called inside given ih _ =>
      obtain ⟨first, others, same, opens⟩ := ih below
      exact ⟨first, _, by rw [kinds, same]; rfl, opens⟩
  | methodCall span name below inside given ih _ =>
      obtain ⟨first, others, same, opens⟩ := ih below
      exact ⟨first, _, by rw [kinds, same]; rfl, opens⟩
  | bool span value => exact ⟨_, _, rfl, by cases value <;> rfl⟩
  | _ => exact ⟨_, _, rfl, rfl⟩

theorem Shaped.opensExpr (shaped : expr.Shaped) :
    ∃ first others, expr.kinds = first :: others ∧ first.opensExpr = true := by
  have whole := shaped
  induction shaped with
  | unary span op below inside _ => exact ⟨_, _, rfl, by cases op <;> rfl⟩
  | binary span op fits below first second ih _ =>
      obtain ⟨first, others, same, opens⟩ := ih first
      exact ⟨first, _, by rw [kinds, same]; rfl, opens⟩
  | _ =>
      obtain ⟨first, others, same, opens⟩ := whole.opensOperand (Nat.lt_succ_self _)
      exact ⟨first, others, same, by simp [TokenKind.opensExpr, opens]⟩

end Expr

namespace Grammar.Reader

/-! An expression that has a shape is read from the tokens it is written with, if nothing follows
that would make it longer.

The reader's loops group from the left, so what stands on the left of an operator or an access is
read before the loop goes on: reading the whole comes to the loop behind its left part. -/

/-- What may follow an expression that is read with the operators of some precedences. -/
structure EndsExpr (levels : List Nat) (rest : List TokenKind) : Prop where
  operators : ∀ level ∈ levels, binaryAt? level (rest.head?.getD .endOfFile) = none
  point : rest.head?.getD .endOfFile ≠ .punctuation .dot
  call : rest.head?.getD .endOfFile ≠ .punctuation .leftParen

theorem EndsExpr.mono {fewer levels : List Nat} {rest : List TokenKind}
    (ends : EndsExpr levels rest) (among : ∀ level ∈ fewer, level ∈ levels) :
    EndsExpr fewer rest :=
  ⟨fun level inside => ends.operators level (among level inside), ends.point, ends.call⟩

theorem endsExpr_punctuation (levels : List Nat) {mark : Punctuation} (rest : List TokenKind)
    (point : mark ≠ .dot) (call : mark ≠ .leftParen) :
    EndsExpr levels (.punctuation mark :: rest) :=
  ⟨fun _ _ => rfl, by simpa using point, by simpa using call⟩

/-- Reading all expressions that are written with fewer tokens than a bound. -/
def ReadsExprs (reader : Reader Expr) (bound : Nat) : Prop :=
  ∀ expr : Expr, expr.Shaped → expr.kinds.length < bound →
    Reads reader Expr.kinds Expr.erase (EndsExpr precedences) expr

variable {inner : Reader Expr} {bound : Nat} {cursor : Cursor} {rest : List TokenKind}

theorem takes_argumentsWith {arguments : List Expr} (reads : ReadsExprs inner bound)
    (shaped : ∀ argument ∈ arguments, argument.Shaped)
    (small : (TokenKind.parenthesized (arguments.map Expr.kinds)).length ≤ bound)
    (ahead : cursor.kinds = TokenKind.parenthesized (arguments.map Expr.kinds) ++ rest) :
    Takes (argumentsWith inner) cursor rest (·.map Expr.erase = arguments.map Expr.erase) := by
  rw [TokenKind.parenthesized, List.length_cons, List.length_append] at small
  have items : ∀ argument ∈ arguments,
      Reads inner Expr.kinds Expr.erase (EndsExpr precedences) argument := fun argument inside =>
    reads argument (shaped argument inside) (by
      have := TokenKind.length_le_separated (List.mem_map_of_mem (f := Expr.kinds) inside)
      omega)
  refine takes_parenthesized _ _ (fun _ => endsExpr_punctuation _ _ (by simp) (by simp))
    (fun _ => endsExpr_punctuation _ _ (by simp) (by simp)) (fun argument inside later => ?_) items
    ahead
  obtain ⟨first, others, same, opens⟩ := (shaped argument inside).opensExpr
  rw [same, List.cons_append, List.head?_cons, Option.getD_some]
  rintro rfl
  cases opens

theorem takes_operandWith {kind : TokenKind} {expr : Expr} (ahead : cursor.kinds = kind :: rest)
    (more : kind ≠ .endOfFile) (other : kind ≠ .punctuation .leftParen)
    (single : ∀ span, (operand? ⟨kind, span⟩).map Expr.erase = some expr.erase) :
    Takes (operandWith inner) cursor rest (·.erase = expr.erase) := by
  have here : cursor.current = ⟨kind, cursor.current.span⟩ := by
    rw [← Cursor.current_kind_cons ahead]
  obtain ⟨read, found, same⟩ := Option.map_eq_some_iff.mp (single cursor.current.span)
  rw [← here] at found
  change Takes (if cursor.current.kind = .punctuation .leftParen then _ else _) cursor rest _
  rw [Cursor.current_kind_cons ahead, if_neg other, found]
  exact (takes_advance ahead more).bind fun _ next left _ => takes_pure left same

theorem takes_operandWith_paren {span : Span} {enclosed : Expr} (reads : ReadsExprs inner bound)
    (shaped : enclosed.Shaped) (small : (Expr.paren span enclosed).kinds.length ≤ bound)
    (ahead : cursor.kinds = (Expr.paren span enclosed).kinds ++ rest) :
    Takes (operandWith inner) cursor rest (·.erase = (Expr.paren span enclosed).erase) := by
  rw [Expr.kinds, List.length_cons, List.length_append] at small
  rw [Expr.kinds, List.cons_append, List.append_assoc] at ahead
  change Takes (if cursor.current.kind = .punctuation .leftParen then _ else _) cursor rest _
  rw [Cursor.current_kind_cons ahead, if_pos rfl]
  refine (takes_advance ahead (by simp)).bind fun _ next left _ => ?_
  refine (reads _ shaped (by omega) next _
    (endsExpr_punctuation _ _ (by simp) (by simp)) left).bind fun _ next left read => ?_
  refine (takes_expect _ left (by simp)).bind fun _ next left _ => takes_pure left ?_
  rw [Expr.erase_paren, Expr.erase_paren, read]

/-! Each access behind what has been read is one turn of the loop. -/

section

variable {reader : Reader Expr} {arguments : List Expr}

theorem Reaches.field {base : Expr} {name : String} (span : Span)
    (before : Reaches reader cursor (.punctuation .dot :: .identifier name :: rest)
      (accesses (argumentsWith inner)) (·.erase = base.erase))
    (call : rest.head?.getD .endOfFile ≠ .punctuation .leftParen) :
    Reaches reader cursor rest (accesses (argumentsWith inner))
      (·.erase = (Expr.field span base name).erase) := by
  refine before.step fun fuel read next left enough same => ?_
  cases fuel with
  | zero => simp at enough
  | succ fuel =>
      refine Reaches.bind (takes_accept left (by simp)) fun _ next left here => ?_
      subst here
      refine Reaches.bind (takes_identifier left) fun _ next left named => ?_
      refine Reaches.bind (takes_isNext left) fun called next left other => ?_
      rw [beq_false_of_ne call] at other
      subst other
      refine reaches_loop left (by simp at enough; omega) ?_
      rw [Expr.erase_field, Expr.erase_field, named, same]

theorem Reaches.call {callee : Expr} (span : Span) (reads : ReadsExprs inner bound)
    (given : ∀ argument ∈ arguments, argument.Shaped)
    (small : (TokenKind.parenthesized (arguments.map Expr.kinds)).length ≤ bound)
    (before : Reaches reader cursor (TokenKind.parenthesized (arguments.map Expr.kinds) ++ rest)
      (accesses (argumentsWith inner)) (·.erase = callee.erase)) :
    Reaches reader cursor rest (accesses (argumentsWith inner))
      (·.erase = (Expr.call span callee arguments).erase) := by
  refine before.step fun fuel read next left enough same => ?_
  cases fuel with
  | zero => simp [TokenKind.parenthesized] at enough
  | succ fuel =>
      refine Reaches.bind (takes_decline left (by simp [TokenKind.parenthesized]))
        fun _ next left other => ?_
      subst other
      refine Reaches.bind (takes_isNext left) fun _ next left here => ?_
      simp only [TokenKind.parenthesized, List.cons_append, List.head?_cons, Option.getD_some,
        BEq.rfl] at here
      subst here
      refine Reaches.bind (takes_argumentsWith reads given small left)
        fun items next left sameItems => ?_
      refine reaches_loop left (by simp [TokenKind.parenthesized] at enough; omega) ?_
      rw [Expr.erase_call, Expr.erase_call, sameItems, same]

theorem Reaches.methodCall {receiver : Expr} {name : String} (span : Span)
    (reads : ReadsExprs inner bound) (given : ∀ argument ∈ arguments, argument.Shaped)
    (small : (TokenKind.parenthesized (arguments.map Expr.kinds)).length ≤ bound)
    (before : Reaches reader cursor (.punctuation .dot :: .identifier name ::
        (TokenKind.parenthesized (arguments.map Expr.kinds) ++ rest))
      (accesses (argumentsWith inner)) (·.erase = receiver.erase)) :
    Reaches reader cursor rest (accesses (argumentsWith inner))
      (·.erase = (Expr.methodCall span receiver name arguments).erase) := by
  refine before.step fun fuel read next left enough same => ?_
  cases fuel with
  | zero => simp at enough
  | succ fuel =>
      refine Reaches.bind (takes_accept left (by simp)) fun _ next left here => ?_
      subst here
      refine Reaches.bind (takes_identifier left) fun _ next left named => ?_
      refine Reaches.bind (takes_isNext left) fun _ next left here => ?_
      simp only [TokenKind.parenthesized, List.cons_append, List.head?_cons, Option.getD_some,
        BEq.rfl] at here
      subst here
      refine Reaches.bind (takes_argumentsWith reads given small left)
        fun items next left sameItems => ?_
      refine reaches_loop left (by simp [TokenKind.parenthesized] at enough; omega) ?_
      rw [Expr.erase_methodCall, Expr.erase_methodCall, named, sameItems, same]

end

/-- Reading an expression without an operator on its outside comes to the accesses behind all that
it is written with. -/
theorem accessedWith_reaches {expr : Expr} (reads : ReadsExprs inner bound) (shaped : expr.Shaped)
    (tight : Operator.bang.precedence < expr.tightness) (small : expr.kinds.length ≤ bound)
    (call : expr.isAccess = true → rest.head?.getD .endOfFile ≠ .punctuation .leftParen)
    (ahead : cursor.kinds = expr.kinds ++ rest) :
    Reaches (accessedWith inner) cursor rest (accesses (argumentsWith inner))
      (·.erase = expr.erase) := by
  induction shaped generalizing rest with
  | unary span op below inside _ => exact absurd tight (Nat.lt_irrefl _)
  | binary span op fits below first second _ _ =>
      exact absurd tight (Nat.lt_asymm (Expr.bang_le_precedence op))
  | paren span inside _ => exact (takes_operandWith_paren reads inside small ahead).reaches
  | field span name below inside ih =>
      rw [Expr.kinds, List.append_assoc] at ahead
      rw [Expr.kinds, List.length_append] at small
      exact .field span (ih below (by omega) (by simp) ahead) (call rfl)
  | call span below called inside given ih _ =>
      rw [Expr.kinds, Expr.kindsAll_eq_map, List.append_assoc] at ahead
      rw [Expr.kinds, Expr.kindsAll_eq_map, List.length_append] at small
      exact .call span reads given (by omega) (ih below (by omega) (by simp [called]) ahead)
  | methodCall span name below inside given ih _ =>
      rw [Expr.kinds, Expr.kindsAll_eq_map, List.append_assoc] at ahead
      rw [Expr.kinds, Expr.kindsAll_eq_map, List.length_append, List.length_cons,
        List.length_cons] at small
      exact .methodCall span reads given (by omega) (ih below (by omega) (by simp) ahead)
  | bool span value =>
      exact (takes_operandWith ahead (by simp) (by simp) fun _ => by cases value <;> rfl).reaches
  | _ => exact (takes_operandWith ahead (by simp) (by simp) fun _ => rfl).reaches

/-- Reading all expressions that are written with at most as many tokens as a bound and have on
their outside, if any, a sign or an operator of some precedences. -/
def ReadsTight (reader : Reader Expr) (levels : List Nat) (bound : Nat) : Prop :=
  ∀ expr : Expr, expr.Shaped →
    (Operator.bang.precedence ≤ expr.tightness ∨ expr.tightness ∈ levels) →
    expr.kinds.length ≤ bound → Reads reader Expr.kinds Expr.erase (EndsExpr levels) expr

theorem reads_accessedWith {expr : Expr} (reads : ReadsExprs inner bound) (shaped : expr.Shaped)
    (tight : Operator.bang.precedence < expr.tightness) (small : expr.kinds.length ≤ bound) :
    Reads (accessedWith inner) Expr.kinds Expr.erase (EndsExpr []) expr := by
  intro cursor rest ends ahead
  refine (accessedWith_reaches reads shaped tight small (fun _ => ends.call) ahead).takes
    fun fuel read next left _ same => ?_
  cases fuel with
  | zero => exact takes_pure left same
  | succ fuel =>
      refine takes_decline_bind left ends.point fun next left => ?_
      refine (takes_isNext left).bind fun called next left other => ?_
      rw [beq_false_of_ne ends.call] at other
      subst other
      exact takes_pure left same

theorem unary?_of_opensOperand {kind : TokenKind} (opens : kind.opensOperand = true) :
    unary? kind = none := by
  cases kind with
  | operator sign => cases opens
  | _ => rfl

theorem reads_signed {operand : Reader Expr} {fuel : Nat}
    (reads : ∀ expr : Expr, expr.Shaped → Operator.bang.precedence < expr.tightness →
      expr.kinds.length ≤ bound → Reads operand Expr.kinds Expr.erase (EndsExpr []) expr)
    {expr : Expr} (shaped : expr.Shaped) (tight : Operator.bang.precedence ≤ expr.tightness)
    (small : expr.kinds.length ≤ bound) (ends : EndsExpr [] rest)
    (enough : cursor.kinds.length ≤ fuel) (ahead : cursor.kinds = expr.kinds ++ rest) :
    Takes (signed operand fuel) cursor rest (·.erase = expr.erase) := by
  induction fuel generalizing expr cursor with
  | zero =>
      obtain ⟨first, others, same, _⟩ := shaped.opensExpr
      rw [ahead, same] at enough
      cases enough
  | succ fuel ih =>
      rcases Nat.lt_or_eq_of_le tight with above | level
      · obtain ⟨first, others, same, opens⟩ := shaped.opensOperand above
        have here : cursor.current.kind = first := by
          rw [same] at ahead
          exact Cursor.current_kind_cons ahead
        rw [signed]
        apply takes_current
        rw [here, unary?_of_opensOperand opens]
        exact reads expr shaped above small cursor rest ends ahead
      · cases shaped with
        | @unary span op operand below inside =>
            rw [Expr.kinds] at small ahead
            rw [List.cons_append] at ahead
            have sign : unary? (.operator op.operator) = some op := by cases op <;> rfl
            rw [signed]
            apply takes_current
            rw [Cursor.current_kind_cons ahead, sign]
            refine (takes_advance ahead (by simp)).bind fun _ next left _ => ?_
            refine (ih inside below (Nat.le_of_succ_le small) ?_ left).map fun read same => ?_
            · rw [ahead, List.length_cons] at enough
              rw [left]
              omega
            · rw [Expr.erase_unary, Expr.erase_unary, same]
        | binary span op _ _ _ _ => exact absurd level.symm (Nat.ne_of_lt (Expr.bang_le_precedence op))
        | _ => exact absurd level (Nat.ne_of_lt (Nat.lt_succ_self _))

theorem readsTight_signedWith (reads : ReadsExprs inner bound) :
    ReadsTight (signedWith inner) [] bound := by
  intro expr shaped tight small cursor rest ends ahead
  exact reads_signed (fun _ inside above within => reads_accessedWith reads inside above within)
    shaped (tight.resolve_right (List.not_mem_nil)) small ends (Nat.le_of_eq cursor.length_kinds)
    ahead

theorem binaryAt?_operator (level : Nat) (op : BinaryOp) :
    binaryAt? level (.operator op.operator) = if op.precedence = level then some op else none := by
  have found : BinaryOp.ofOperator? op.operator = some op := by cases op <;> rfl
  simp [binaryAt?, found, Option.filter]

variable {operand : Reader Expr} {level : Nat} {tighter : List Nat}

theorem endsExpr_operator {op : BinaryOp} (rest : List TokenKind)
    (above : ∀ other ∈ tighter, op.precedence < other) :
    EndsExpr tighter (.operator op.operator :: rest) := by
  refine ⟨fun other inside => ?_, by simp, by simp⟩
  rw [List.head?_cons, Option.getD_some, binaryAt?_operator]
  exact if_neg (Nat.ne_of_lt (above other inside))

/-- Where the looser operators are left out, whatever binds more tightly than an operator is known. -/
theorem known_of_tighter {op : BinaryOp}
    (closed : ∀ other : BinaryOp, op.precedence < other.precedence → other.precedence ∈ tighter)
    {expr : Expr} (tight : op.precedence < expr.tightness) :
    Operator.bang.precedence ≤ expr.tightness ∨ expr.tightness ∈ tighter := by
  cases expr with
  | binary span left other right => exact .inr (closed other tight)
  | unary span op operand => exact .inl (Nat.le_refl _)
  | _ => exact .inl (Nat.le_succ _)

/-- Reading what stands on the left of an operator comes to the loop over the operators of that
precedence. -/
theorem operatorsBehind_reaches {left : Expr} {op : BinaryOp}
    (reads : ReadsTight operand tighter bound)
    (above : ∀ other ∈ tighter, op.precedence < other)
    (closed : ∀ other : BinaryOp, op.precedence < other.precedence → other.precedence ∈ tighter)
    (shaped : left.Shaped) (fits : left.FitsLeft op) (small : left.kinds.length ≤ bound)
    (ends : EndsExpr tighter rest) (ahead : cursor.kinds = left.kinds ++ rest) :
    Reaches (operand >>= fun first => remaining >>= fun fuel =>
        operatorsBehind operand op.precedence fuel first)
      cursor rest (operatorsBehind operand op.precedence) (·.erase = left.erase) := by
  have whole := shaped
  induction shaped generalizing op rest with
  | @binary span inside first second fitsInside tight shapedFirst shapedSecond ih _ =>
      by_cases looser : op.precedence < inside.precedence
      · exact (reads _ whole (known_of_tighter closed looser) small cursor rest ends ahead).reaches
      · obtain ⟨grouped, level⟩ := fits.resolve_left looser
        have level : inside.precedence = op.precedence := level
        have group := BinaryOp.associativity_of_precedence level
        rw [Expr.kinds, List.append_assoc, List.cons_append] at ahead
        rw [Expr.kinds, List.length_append, List.length_cons] at small
        rw [← level] at above closed ⊢
        refine (ih above closed fitsInside (by omega) (endsExpr_operator _ above) ahead
          shapedFirst).step fun fuel got next left enough read => ?_
        cases fuel with
        | zero => cases enough
        | succ fuel =>
            apply reaches_currentKind left
            rw [binaryAt?_operator, if_pos rfl]
            refine Reaches.bind (takes_advance left (by simp)) fun _ next left _ => ?_
            refine Reaches.bind (reads _ shapedSecond (known_of_tighter closed tight) (by omega) next
              rest ends left) fun right next left readRight => ?_
            rw [if_neg (by rw [group, grouped]; simp)]
            refine reaches_loop left (by simp at enough; omega) ?_
            rw [Expr.erase_join, Expr.erase_binary, read, readRight]
  | unary => exact (reads _ whole (.inl (Nat.le_refl _)) small cursor rest ends ahead).reaches
  | _ => exact (reads _ whole (.inl (Nat.le_succ _)) small cursor rest ends ahead).reaches

/-- Where no operator of a precedence follows, the loop over these operators stops. -/
theorem takes_operatorsBehind_end {fuel : Nat} {read expr : Expr}
    (none : binaryAt? level (rest.head?.getD .endOfFile) = none) (left : cursor.kinds = rest)
    (same : read.erase = expr.erase) :
    Takes (operatorsBehind operand level fuel read) cursor rest (·.erase = expr.erase) := by
  cases fuel with
  | zero => exact takes_pure left same
  | succ fuel =>
      apply takes_nextKind left
      rw [none]
      exact takes_pure left same

/-- The loop takes an operator with its right operand and stops behind it, if no other operator of that
precedence follows. -/
theorem takes_operatorsBehind_last {op : BinaryOp} {fuel : Nat} {read first second : Expr}
    (span : Span) (reads : ReadsTight operand tighter bound)
    (closed : ∀ other : BinaryOp, op.precedence < other.precedence → other.precedence ∈ tighter)
    (shaped : second.Shaped) (tight : op.precedence < second.tightness)
    (small : second.kinds.length ≤ bound) (ends : EndsExpr (op.precedence :: tighter) rest)
    (enough : (.operator op.operator :: (second.kinds ++ rest)).length ≤ fuel)
    (left : cursor.kinds = .operator op.operator :: (second.kinds ++ rest))
    (same : read.erase = first.erase) :
    Takes (operatorsBehind operand op.precedence fuel read) cursor rest
      (·.erase = (Expr.binary span first op second).erase) := by
  have endsTighter := ends.mono fun inside => List.mem_cons_of_mem op.precedence
  cases fuel with
  | zero => cases enough
  | succ fuel =>
      apply takes_currentKind left
      rw [binaryAt?_operator, if_pos rfl]
      refine (takes_advance left (by simp)).bind fun _ next left _ => ?_
      refine (reads _ shaped (known_of_tighter closed tight) small next rest endsTighter left).bind
        fun right next left sameRight => ?_
      have joined : (read.join op right).erase = (Expr.binary span first op second).erase := by
        rw [Expr.erase_join, Expr.erase_binary, same, sameRight]
      have none := ends.operators _ List.mem_cons_self
      by_cases single : op.operator.associativity = .none
      · rw [if_pos single]
        apply takes_nextKind left
        rw [none]
        exact takes_pure left joined
      · rw [if_neg single]
        exact takes_operatorsBehind_end none left joined

theorem readsTight_binaryWith (operands : ReadsTight operand [] bound) :
    ∀ levels : List Nat, levels.Pairwise (· < ·) →
      (∀ level ∈ levels, level < Operator.bang.precedence) →
      (∀ level ∈ levels, ∀ other : BinaryOp, level < other.precedence → other.precedence ∈ levels) →
      ReadsTight (binaryWith operand levels) levels bound := by
  intro levels sorted loose closed
  induction levels with
  | nil => exact operands
  | cons level tighter ih =>
      obtain ⟨above, sorted⟩ := List.pairwise_cons.mp sorted
      have closedHere : ∀ other : BinaryOp, level < other.precedence → other.precedence ∈ tighter :=
        fun other further => (List.mem_cons.mp (closed level List.mem_cons_self other further)).resolve_left
          (Nat.ne_of_gt further)
      have closedTail : ∀ inside ∈ tighter, ∀ other : BinaryOp, inside < other.precedence →
          other.precedence ∈ tighter := fun inside among other further =>
        closedHere other (Nat.lt_trans (above inside among) further)
      have reads := ih sorted (fun inside among => loose inside (List.mem_cons_of_mem _ among))
        closedTail
      intro expr shaped known small cursor rest ends ahead
      have endsTighter := ends.mono fun inside => List.mem_cons_of_mem level
      change Takes (binaryWith operand tighter >>= fun first => remaining >>= fun fuel =>
        operatorsBehind (binaryWith operand tighter) level fuel first) cursor rest _
      by_cases here : expr.tightness = level
      · have looser := loose level List.mem_cons_self
        cases shaped with
        | @binary span op first second fits tight shapedFirst shapedSecond =>
            obtain rfl : op.precedence = level := here
            rw [Expr.kinds, List.append_assoc, List.cons_append] at ahead
            rw [Expr.kinds, List.length_append, List.length_cons] at small
            refine (operatorsBehind_reaches reads above closedHere shapedFirst fits (by omega)
              (endsExpr_operator _ above) ahead).takes fun fuel read next left enough same => ?_
            exact takes_operatorsBehind_last span reads closedHere shapedSecond tight (by omega) ends
              enough left same
        | unary => exact absurd here (Nat.ne_of_gt looser)
        | _ => exact absurd here (Nat.ne_of_gt (Nat.lt_succ_of_lt looser))
      · -- Nothing at the end is an operator of this precedence, so the loop stops there.
        have known := known.imp_right fun among => (List.mem_cons.mp among).resolve_left here
        exact (reads expr shaped known small cursor rest endsTighter ahead).reaches.takes
          fun fuel read next left _ same =>
            takes_operatorsBehind_end (ends.operators level List.mem_cons_self) left same

theorem mem_precedences (op : BinaryOp) : op.precedence ∈ precedences := by
  cases op <;> decide

theorem readsExprs_expressionAt (depth : Nat) : ReadsExprs (expressionAt depth) depth := by
  induction depth with
  | zero => exact fun _ _ small => absurd small (Nat.not_lt_zero _)
  | succ depth ih =>
      intro expr shaped small
      have known : Operator.bang.precedence ≤ expr.tightness ∨ expr.tightness ∈ precedences := by
        cases expr with
        | binary span left op right => exact .inr (mem_precedences op)
        | unary => exact .inl (Nat.le_refl _)
        | _ => exact .inl (Nat.le_succ _)
      exact readsTight_binaryWith (readsTight_signedWith ih) precedences (by decide) (by decide)
        (fun _ _ other _ => mem_precedences other) expr shaped known (Nat.le_of_lt_succ small)

theorem reads_expression {expr : Expr} (shaped : expr.Shaped) :
    Reads expression Expr.kinds Expr.erase (EndsExpr precedences) expr := by
  intro cursor rest ends ahead
  have small : expr.kinds.length < cursor.rest.length + 1 := by
    rw [← cursor.length_kinds, ahead, List.length_append]
    omega
  rw [expression]
  exact takes_remaining (readsExprs_expressionAt _ expr shaped small cursor rest ends ahead)

theorem takes_expressionAfterEquals {value : Option Expr} (shaped : ∀ found ∈ value, found.Shaped)
    (ends : EndsExpr precedences rest) (equals : rest.head?.getD .endOfFile ≠ .operator .eq)
    (ahead : cursor.kinds = Expr.equalsKinds value ++ rest) :
    Takes expressionAfterEquals cursor rest (·.map Expr.erase = value.map Expr.erase) := by
  cases value with
  | none => exact takes_decline_bind ahead equals fun _ left => takes_pure left rfl
  | some value =>
      refine takes_accept_bind ahead (by simp) fun next left => ?_
      exact (reads_expression (shaped value rfl) next rest ends left).map fun _ read => by
        rw [Option.map_some, Option.map_some, read]

end Grammar.Reader

end DataClass
