import DataClass.Grammar.Declaration
import DataClass.Proofs.Grammar.Cutting.Basic
import DataClass.Proofs.Grammar.Tracking.Declaration
namespace DataClass.Grammar.Reader

/-! Paths, lists in parentheses, type references and expressions in a text that is cut. There are no
bodies inside of them, so at the end of the text at most one of them is not complete. -/

variable {α : Type} {stop : Nat} {old : List Token} {takes : Prop} {cursor : Cursor}
  {bound turns other : Nat}

section Lists

variable {item item' : Reader α}

theorem halts_segments (turns : Nat) : Halts stop true true (segments turns) := by
  cases turns with
  | zero => exact halts_pure []
  | succ turns => exact halts_of_value fun _ _ => ⟨[], rfl⟩

theorem cuts_segments (enough : cursor.Enough old [.ending stop] turns other) :
    Cuts stop old true true False (segments turns) (segments other) cursor := by
  refine cuts_loop (fun turns (_ : Unit) => segments turns) (fun other _ => segments other)
    (fun other _ => halts_segments other) (fun _ _ _ => ⟨_, cuts_pure []⟩)
    (fun turns other _ cursor _ again => ?_) enough (Nat.lt_succ_self _) ()
  refine cuts_accept true (by decide) rfl (halts_pure []) (fun next _ shorter => ?_) (cuts_pure [])
  refine cuts_identifier.bind (fun _ => (halts_segments other).bind fun _ => halts_pure _)
    (fun _ later _ further => ?_) False.elim
  exact (again () later (Nat.lt_trans (further trivial) shorter)).map

theorem cuts_dottedPath : Cuts stop old true true True dottedPath dottedPath cursor := by
  refine cuts_identifier.bind (fun _ => halts_of_value fun _ _ => ⟨_, rfl⟩)
    (fun _ _ _ _ => cuts_remaining fun _ enough => ?_) id
  exact (cuts_segments enough).map

theorem halts_itemsAfterComma (item : Reader α) (turns : Nat) :
    Halts stop true true (itemsAfterComma item turns) := by
  cases turns with
  | zero => exact halts_pure []
  | succ turns => exact halts_of_value fun _ _ => ⟨[], rfl⟩

theorem cuts_itemsAfterComma (items : CutsBelow stop old true true True bound item item')
    (enough : cursor.Enough old [.ending stop] turns other) (within : cursor.rest.length < bound) :
    Cuts stop old true true False (itemsAfterComma item turns) (itemsAfterComma item' other)
      cursor := by
  refine cuts_loop (fun turns (_ : Unit) => itemsAfterComma item turns)
    (fun other _ => itemsAfterComma item' other) (fun other _ => halts_itemsAfterComma item' other)
    (fun _ _ _ => ⟨_, cuts_pure []⟩) (fun turns other _ cursor within again => ?_) enough within ()
  refine cuts_accept true (by decide) rfl (halts_pure []) (fun next _ shorter => ?_) (cuts_pure [])
  refine (items.cuts next (Nat.lt_trans shorter within)).bind
    (fun _ => (halts_itemsAfterComma item' other).bind fun _ => halts_pure _)
    (fun _ later _ further => ?_) False.elim
  exact (again () later (Nat.lt_trans (further trivial) shorter)).map

theorem halts_commaSeparated (items : Halts stop true true item) :
    Halts stop true true (commaSeparated item) :=
  items.bind fun _ => halts_of_value fun _ _ => ⟨_, rfl⟩

theorem cuts_commaSeparated (items : CutsBelow stop old true true True bound item item')
    (within : cursor.rest.length < bound) :
    Cuts stop old true true True (commaSeparated item) (commaSeparated item') cursor := by
  refine (items.cuts cursor within).bind (fun _ => halts_of_value fun _ _ => ⟨_, rfl⟩)
    (fun _ next _ shorter => cuts_remaining fun _ enough => ?_) id
  have within := Nat.lt_trans (shorter trivial) within
  exact (cuts_itemsAfterComma items enough within).map

theorem cuts_parenthesized (opening closing : String)
    (items : CutsBelow stop old true true True bound item item') (within : cursor.rest.length ≤ bound) :
    Cuts stop old true true True (parenthesized opening closing item)
      (parenthesized opening closing item') cursor := by
  have closes (items : List α) : Halts stop true true
      (expect (.punctuation .rightParen) closing >>= fun _ => pure items) :=
    halts_of_failure fun _ _ => ⟨closing, rfl⟩
  have listed : Halts stop true true (commaSeparated item' >>= fun items =>
      expect (.punctuation .rightParen) closing >>= fun _ => pure items) :=
    (halts_commaSeparated items.halts).bind closes
  refine (cuts_expect opening (by decide) rfl).before (fun _ => listed) fun _ next _ shorter => ?_
  have within : next.rest.length < bound := Nat.lt_of_lt_of_le (shorter trivial) within
  refine cuts_accept true (by decide) rfl listed (fun _ _ _ => cuts_pure []) ?_
  refine (cuts_commaSeparated items within).before closes fun _ _ _ _ => ?_
  exact (cuts_expect closing (by decide) rfl).map

end Lists

section Types

variable {inner inner' : Reader TypeRef}

theorem halts_arrayMarks (start turns : Nat) (type : TypeRef) :
    Halts stop true true (arrayMarks start turns type) := by
  cases turns with
  | zero => exact halts_pure type
  | succ turns => exact halts_of_value fun _ _ => ⟨type, rfl⟩

theorem cuts_arrayMarks (start : Nat) (enough : cursor.Enough old [.ending stop] turns other)
    (type : TypeRef) :
    Cuts stop old true true False (arrayMarks start turns type) (arrayMarks start other type)
      cursor := by
  refine cuts_loop (arrayMarks start) (arrayMarks start) (halts_arrayMarks start)
    (fun type _ _ => ⟨_, cuts_pure type⟩) (fun turns other type cursor _ again => ?_) enough
    (Nat.lt_succ_self _) type
  refine cuts_accept true (by decide) rfl (halts_pure type) (fun next _ shorter => ?_) (cuts_pure type)
  refine (cuts_expect _ (by decide) rfl).bind
    (fun _ last reported => halts_arrayMarks start other _ last reported)
    (fun _ later _ further => ?_) False.elim
  exact cuts_spanFrom _ fun _ => again _ later (Nat.lt_trans (further trivial) shorter)

theorem cuts_typeArguments (inside : CutsBelow stop old true true True bound inner inner')
    (within : cursor.rest.length ≤ bound) :
    Cuts stop old true true False (typeArguments inner) (typeArguments inner') cursor := by
  refine cuts_accept true (by decide) rfl (halts_pure []) (fun next _ shorter => ?_) (cuts_pure [])
  refine (cuts_commaSeparated inside (Nat.lt_of_lt_of_le shorter within)).bind
    (fun _ => halts_of_failure fun _ _ => ⟨_, rfl⟩) (fun _ _ _ _ => ?_) False.elim
  exact (cuts_expect _ (by decide) rfl).loosen.map

theorem halts_typeRefWith (inner : Reader TypeRef) : Halts stop true true (typeRefWith inner) :=
  halts_of_failure fun _ _ => ⟨_, rfl⟩

theorem cuts_typeRefWith
    (inside : CutsBelow stop old true true True cursor.rest.length inner inner') :
    Cuts stop old true true True (typeRefWith inner) (typeRefWith inner') cursor := by
  refine cuts_current (halts_typeRefWith inner') ?_
  split
  · next nothing => exact (cuts_advance nothing (by decide) rfl).map
  · refine cuts_dottedPath.bind (fun _ => halts_of_value fun _ _ => ⟨_, rfl⟩)
      (fun path next _ shorter => ?_) id
    refine (cuts_typeArguments inside (Nat.le_of_lt (shorter trivial))).bind
      (fun _ => halts_of_value fun _ _ => ⟨_, rfl⟩) (fun arguments _ _ _ => ?_) False.elim
    exact cuts_spanFrom _ fun _ => cuts_remaining fun _ enough => cuts_arrayMarks _ enough _

theorem cuts_typeRef : Cuts stop old true true True typeRef typeRef cursor :=
  cuts_remaining fun _ enough => cuts_layers rfl (fun _ => rfl) halts_typeRefWith
    (fun _ _ _ inside => cuts_typeRefWith inside) enough

theorem cuts_typeAfterColon :
    Cuts stop old true true False typeAfterColon typeAfterColon cursor := by
  refine cuts_accept true (by decide) rfl (halts_pure none) (fun _ _ _ => ?_) (cuts_pure none)
  exact cuts_typeRef.loosen.map

end Types

section Exprs

variable {inner inner' operand operand' : Reader Expr} {arguments arguments' : Reader (List Expr)}

theorem halts_operatorsBehind (operand : Reader Expr) (level turns : Nat) (left : Expr) :
    Halts stop true true (operatorsBehind operand level turns left) := by
  cases turns with
  | zero => exact halts_pure left
  | succ turns => exact halts_of_value fun _ _ => ⟨left, rfl⟩

theorem plain_of_binaryAt? {level : Nat} {kind : TokenKind} {op : BinaryOp}
    (found : binaryAt? level kind = some op) : Plain kind ∧ kind.isSeam = false := by
  rw [(binaryAt?_some found).1]
  exact ⟨by simp [Plain], rfl⟩

theorem plain_of_unary? {kind : TokenKind} {op : UnaryOp} (found : unary? kind = some op) :
    Plain kind ∧ kind.isSeam = false := by
  rw [unary?_some found]
  exact ⟨by simp [Plain], rfl⟩

theorem plain_of_operand? {token : Token} {expr : Expr} (found : operand? token = some expr) :
    Plain token.kind ∧ token.kind.isSeam = false := by
  unfold operand? at found
  split at found <;> first | cases found; done | next here => rw [here]; exact ⟨by simp [Plain], rfl⟩

/-- An operator, the operand behind it, and what follows the two. -/
theorem cuts_advance_operand {behind behind' : Expr → Reader Expr}
    (operands : CutsBelow stop old true true True bound operand operand')
    (plain : Plain cursor.current.kind) (seam : cursor.current.kind.isSeam = false)
    (within : cursor.rest.length < bound) (halts : ∀ right, Halts stop true true (behind' right))
    (later : ∀ (right : Expr) (next : Cursor), next.rest.length < cursor.rest.length →
      Cuts stop old true true False (behind right) (behind' right) next) :
    Cuts stop old true true False (advance >>= fun _ => operand >>= behind)
      (advance >>= fun _ => operand' >>= behind') cursor := by
  refine (cuts_advance rfl plain seam).bind (fun _ => operands.halts.bind halts)
    (fun _ next _ shorter => ?_) False.elim
  refine (operands.cuts next (Nat.lt_trans (shorter trivial) within)).bind halts
    (fun right next' _ further => ?_) False.elim
  exact later right next' (Nat.lt_trans (further trivial) (shorter trivial))

theorem cuts_operatorsBehind (level : Nat)
    (operands : CutsBelow stop old true true True bound operand operand')
    (enough : cursor.Enough old [.ending stop] turns other) (within : cursor.rest.length < bound)
    (left : Expr) :
    Cuts stop old true true False (operatorsBehind operand level turns left)
      (operatorsBehind operand' level other left) cursor := by
  refine cuts_loop (operatorsBehind operand level) (operatorsBehind operand' level)
    (halts_operatorsBehind operand' level) (fun left _ _ => ⟨_, cuts_pure left⟩)
    (fun turns other left cursor within again => ?_) enough within left
  refine cuts_currentKind (halts_pure left) ?_
  cases found : binaryAt? level cursor.current.kind with
  | none => exact cuts_pure left
  | some op =>
      obtain ⟨plain, seam⟩ := plain_of_binaryAt? found
      refine cuts_advance_operand operands plain seam within (fun right => ?_)
        (fun right later shorter => ?_)
      · split
        · exact halts_of_value fun _ _ => ⟨_, rfl⟩
        · exact halts_operatorsBehind operand' level other _
      split
      · refine cuts_currentKind (halts_pure _) ?_
        cases chained : binaryAt? level later.current.kind with
        | none => exact cuts_pure _
        | some op' =>
            -- the operator that is one too many is refused wherever the text is cut
            obtain ⟨plain, seam⟩ := plain_of_binaryAt? chained
            refine cuts_of_failure ?_ fun _ _ taken => by cases taken
            refine (tracks_advance rfl plain.visible).bind (fun _ _ _ _ => ?_) False.elim
            exact tracks_previousSpan fun _ => tracks_fail _
      · exact again _ later shorter

theorem cuts_binaryWith (operands : CutsBelow stop old true true True bound operand operand')
    (levels : List Nat) :
    CutsBelow stop old true true True bound (binaryWith operand levels)
      (binaryWith operand' levels) := by
  induction levels with
  | nil => exact operands
  | cons level tighter ih =>
      have behind (left : Expr) : Halts stop true true
          (remaining >>= fun turns => operatorsBehind (binaryWith operand' tighter) level turns left) :=
        fun last reported => halts_operatorsBehind _ level 1 left last reported
      refine ⟨fun cursor within => ?_, ih.halts.bind behind⟩
      refine (ih.cuts cursor within).bind behind
        (fun left next _ shorter => cuts_remaining fun _ enough => ?_) id
      exact cuts_operatorsBehind level ih enough (Nat.lt_trans (shorter trivial) within) left

theorem halts_signed (operands : Halts stop true true operand) (turns : Nat) :
    Halts stop true true (signed operand turns) := by
  cases turns with
  | zero => exact operands
  | succ turns => exact operands

theorem cuts_signed (operands : CutsBelow stop old true true True bound operand operand')
    (enough : cursor.Enough old [.ending stop] turns other) (within : cursor.rest.length < bound) :
    Cuts stop old true true True (signed operand turns) (signed operand' other) cursor := by
  refine cuts_loop (fun turns (_ : Unit) => signed operand turns)
    (fun other _ => signed operand' other) (fun other _ => halts_signed operands.halts other)
    (fun _ cursor within => ⟨_, operands.cuts cursor within⟩)
    (fun turns other _ cursor within again => ?_) enough within ()
  refine cuts_current operands.halts ?_
  cases found : unary? cursor.current.kind with
  | none => exact operands.cuts cursor within
  | some op =>
      obtain ⟨plain, seam⟩ := plain_of_unary? found
      refine (cuts_advance rfl plain seam).bind
        (fun _ => (halts_signed operands.halts other).bind fun _ => halts_pure _)
        (fun _ next _ shorter => ?_) id
      exact (again () next (shorter trivial)).loosen.map

theorem halts_accesses (arguments : Reader (List Expr)) (turns : Nat) (base : Expr) :
    Halts stop true true (accesses arguments turns base) := by
  cases turns with
  | zero => exact halts_pure base
  | succ turns => exact halts_of_value fun _ _ => ⟨base, rfl⟩

theorem cuts_accesses (given : CutsBelow stop old true true True bound arguments arguments')
    (enough : cursor.Enough old [.ending stop] turns other) (within : cursor.rest.length < bound)
    (base : Expr) :
    Cuts stop old true true False (accesses arguments turns base) (accesses arguments' other base)
      cursor := by
  refine cuts_loop (accesses arguments) (accesses arguments') (halts_accesses arguments')
    (fun base _ _ => ⟨_, cuts_pure base⟩) (fun turns other base cursor within again => ?_) enough
    within base
  refine cuts_accept true (by decide) rfl (halts_of_value fun _ _ => ⟨base, rfl⟩)
    (fun next _ shorter => ?_) ?_
  · refine cuts_identifier.bind
      (fun _ last reported => halts_accesses arguments' other _ last reported)
      (fun name later _ further => ?_) False.elim
    have shorter := Nat.lt_trans (further trivial) shorter
    refine cuts_isNext (fun last reported => halts_accesses arguments' other _ last reported) ?_
    split
    · refine (given.cuts later (Nat.lt_trans shorter within)).bind
        (fun _ last reported => halts_accesses arguments' other _ last reported)
        (fun found last _ taken => ?_) False.elim
      exact cuts_spanFrom _ fun _ => again _ last (Nat.lt_trans (taken trivial) shorter)
    · exact cuts_spanFrom _ fun _ => again _ later shorter
  · refine cuts_isNext (halts_pure base) ?_
    split
    · refine (given.cuts cursor within).bind
        (fun _ last reported => halts_accesses arguments' other _ last reported)
        (fun found last _ taken => ?_) False.elim
      exact cuts_spanFrom _ fun _ => again _ last (taken trivial)
    · exact cuts_pure base

theorem halts_operandWith (inner : Reader Expr) : Halts stop true true (operandWith inner) :=
  halts_of_failure fun _ _ => ⟨_, rfl⟩

theorem cuts_operandWith (inside : CutsBelow stop old true true True bound inner inner')
    (within : cursor.rest.length ≤ bound) :
    Cuts stop old true true True (operandWith inner) (operandWith inner') cursor := by
  refine cuts_current (halts_operandWith inner') ?_
  split
  · next opening =>
      have closes (start : Nat) (expr : Expr) : Halts stop true true
          (expect (.punctuation .rightParen) "')' to close parenthesized expression" >>= fun _ =>
            spanFrom start >>= fun span => pure (Expr.paren span expr)) :=
        halts_of_failure fun _ _ => ⟨_, rfl⟩
      refine (cuts_advance opening (by decide) rfl).before (fun _ => inside.halts.bind (closes _))
        fun _ next _ shorter => ?_
      refine (inside.cuts next (Nat.lt_of_lt_of_le (shorter trivial) within)).before (closes _)
        fun _ _ _ _ => ?_
      exact (cuts_expect _ (by decide) rfl).placed
  · split
    · next expr found =>
        obtain ⟨plain, seam⟩ := plain_of_operand? found
        exact (cuts_advance rfl plain seam).map
    · exact cuts_failExpected _

theorem cuts_accessedWith (inside : CutsBelow stop old true true True bound inner inner') :
    CutsBelow stop old true true True (bound + 1) (accessedWith inner) (accessedWith inner') := by
  refine ⟨fun cursor within => ?_, halts_of_failure fun _ _ => ⟨_, rfl⟩⟩
  have arguments : CutsBelow stop old true true True (bound + 1) (argumentsWith inner)
      (argumentsWith inner') :=
    ⟨fun _ within => cuts_parenthesized _ _ inside (Nat.le_of_lt_succ within),
      halts_of_failure fun _ _ => ⟨_, rfl⟩⟩
  refine (cuts_operandWith inside (Nat.le_of_lt_succ within)).bind
    (fun base last reported => halts_accesses (argumentsWith inner') 1 base last reported)
    (fun base next _ shorter => ?_) id
  exact cuts_remaining fun _ enough =>
    cuts_accesses arguments enough (Nat.lt_trans (shorter trivial) within) base

theorem halts_expressionWith (inner : Reader Expr) : Halts stop true true (expressionWith inner) :=
  halts_of_failure fun _ _ => ⟨_, rfl⟩

theorem cuts_expressionWith (inside : CutsBelow stop old true true True bound inner inner') :
    CutsBelow stop old true true True (bound + 1) (expressionWith inner) (expressionWith inner') := by
  refine cuts_binaryWith ⟨fun _ within => cuts_remaining fun _ enough =>
    cuts_signed (cuts_accessedWith inside) enough within, ?_⟩ precedences
  exact halts_of_failure fun _ _ => ⟨_, rfl⟩

theorem cuts_expression : Cuts stop old true true True expression expression cursor :=
  cuts_remaining fun _ enough => cuts_layers rfl (fun _ => rfl) halts_expressionWith
    (fun _ _ cursor inside => (cuts_expressionWith inside).cuts cursor (Nat.lt_succ_self _)) enough

theorem cuts_expressionAfterEquals :
    Cuts stop old true true False expressionAfterEquals expressionAfterEquals cursor := by
  refine cuts_accept true (by decide) rfl (halts_pure none) (fun _ _ _ => ?_) (cuts_pure none)
  exact cuts_expression.loosen.map

end Exprs

end DataClass.Grammar.Reader
