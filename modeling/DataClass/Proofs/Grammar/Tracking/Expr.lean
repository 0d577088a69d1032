import DataClass.Proofs.Grammar.Soundness.Expr
import DataClass.Proofs.Grammar.Tracking.Lists
namespace DataClass.Grammar.Reader

/-! Reading an expression does not depend on what stands behind the token that ends it. -/

variable {old new : List Token} {takes closed : Prop} {cursor : Cursor} {bound turns other : Nat}
  {inner inner' operand operand' : Reader Expr} {arguments arguments' : Reader (List Expr)}

theorem tracks_operatorsBehind (level : Nat)
    (operands : TracksBelow old new True False bound operand operand')
    (enough : cursor.Enough old new turns other) (within : cursor.rest.length < bound) (left : Expr) :
    Tracks old new False False (operatorsBehind operand level turns left)
      (operatorsBehind operand' level other left) cursor := by
  refine tracks_loop (operatorsBehind operand level) (operatorsBehind operand' level) id
    (fun left _ _ => ⟨_, tracks_pure left⟩) (fun turns other left cursor within again => ?_) enough
    within left
  refine tracks_currentKind ?_ id
  cases found : binaryAt? level cursor.current.kind with
  | none => exact tracks_pure left
  | some op =>
      refine (tracks_advance (binaryAt?_some found).1 (by simp)).bind (fun _ next _ shorter => ?_)
        False.elim
      have shorter := shorter trivial
      refine (operands next (Nat.lt_trans shorter within)).bind (fun right later _ further => ?_)
        False.elim
      split
      · refine tracks_currentKind ?_ id
        cases chained : binaryAt? level later.current.kind with
        | none => exact tracks_pure _
        | some op' =>
            refine (tracks_advance (binaryAt?_some chained).1 (by simp)).bind (fun _ _ _ _ => ?_)
              False.elim
            exact tracks_previousSpan fun _ => tracks_fail _
      · exact again _ later (Nat.lt_trans (further trivial) shorter)

theorem tracks_binaryWith (operands : TracksBelow old new True False bound operand operand')
    (levels : List Nat) :
    TracksBelow old new True False bound (binaryWith operand levels) (binaryWith operand' levels) := by
  induction levels with
  | nil => exact operands
  | cons level tighter ih =>
      intro cursor within
      refine (ih cursor within).bind (fun left next _ shorter => tracks_remaining fun _ enough => ?_) id
      exact tracks_operatorsBehind level ih enough (Nat.lt_trans (shorter trivial) within) left

theorem tracks_signed (operands : TracksBelow old new True False bound operand operand')
    (enough : cursor.Enough old new turns other) (within : cursor.rest.length < bound) :
    Tracks old new True False (signed operand turns) (signed operand' other) cursor := by
  refine tracks_loop (fun turns (_ : Unit) => signed operand turns)
    (fun other _ => signed operand' other) False.elim (fun _ cursor within => ⟨_, operands cursor within⟩)
    (fun turns other _ cursor within again => ?_) enough within ()
  refine tracks_current ?_ False.elim
  cases found : unary? cursor.current.kind with
  | none => exact operands cursor within
  | some op =>
      refine (tracks_advance (unary?_some found) (by simp)).bind (fun _ next _ shorter => ?_) id
      exact (again () next (shorter trivial)).loosen.map

theorem tracks_accesses
    (given : TracksBelow old new True False bound arguments arguments')
    (enough : cursor.Enough old new turns other) (within : cursor.rest.length < bound) (base : Expr) :
    Tracks old new False False (accesses arguments turns base) (accesses arguments' other base) cursor := by
  refine tracks_loop (accesses arguments) (accesses arguments') id
    (fun base _ _ => ⟨_, tracks_pure base⟩) (fun turns other base cursor within again => ?_) enough
    within base
  refine tracks_accept (by simp) (fun next _ shorter => ?_) ?_ id
  · refine tracks_identifier.bind (fun name later _ further => ?_) False.elim
    have shorter := Nat.lt_trans (further trivial) shorter
    refine tracks_isNext ?_ id
    split
    · refine (given later (Nat.lt_trans shorter within)).bind (fun found last _ taken => ?_) False.elim
      exact tracks_spanFrom _ fun _ => again _ last (Nat.lt_trans (taken trivial) shorter)
    · exact tracks_spanFrom _ fun _ => again _ later shorter
  · refine tracks_isNext ?_ id
    split
    · refine (given cursor within).bind (fun found last _ taken => ?_) False.elim
      exact tracks_spanFrom _ fun _ => again _ last (taken trivial)
    · exact tracks_pure base

theorem tracks_operandWith (inside : TracksBelow old new True False bound inner inner')
    (within : cursor.rest.length ≤ bound) :
    Tracks old new True closed (operandWith inner) (operandWith inner') cursor := by
  refine tracks_current ?_ fun _ => trivial
  split
  · next opening =>
      refine (tracks_advance opening (by simp)).bind (fun _ next _ shorter => ?_) id
      refine (inside next (Nat.lt_of_lt_of_le (shorter trivial) within)).before fun _ _ _ _ => ?_
      exact (tracks_expect _ (by simp)).placed
  · split
    · next expr found =>
        obtain ⟨_, _, _, _, more⟩ := operand?_some found
        exact (tracks_advance rfl more).map
    · exact tracks_failExpected _

theorem tracks_accessedWith (inside : TracksBelow old new True False bound inner inner') :
    TracksBelow old new True False (bound + 1) (accessedWith inner) (accessedWith inner') := by
  intro cursor within
  have arguments : TracksBelow old new True False (bound + 1) (argumentsWith inner)
      (argumentsWith inner') := fun _ within =>
    tracks_parenthesized _ _ inside (Nat.le_of_lt_succ within)
  refine (tracks_operandWith inside (Nat.le_of_lt_succ within)).bind (fun base next _ shorter => ?_) id
  exact tracks_remaining fun _ enough =>
    tracks_accesses arguments enough (Nat.lt_trans (shorter trivial) within) base

theorem tracks_expressionWith (inside : TracksBelow old new True False bound inner inner') :
    TracksBelow old new True False (bound + 1) (expressionWith inner) (expressionWith inner') :=
  tracks_binaryWith (fun _ within => tracks_remaining fun _ enough =>
    tracks_signed (tracks_accessedWith inside) enough within) precedences

theorem tracks_expression : Tracks old new True False expression expression cursor :=
  tracks_remaining fun _ enough => tracks_layers rfl (fun _ => rfl) False.elim
    (fun _ _ cursor inside => tracks_expressionWith inside cursor (Nat.lt_succ_self _)) enough

theorem tracks_expressionAfterEquals :
    Tracks old new False False expressionAfterEquals expressionAfterEquals cursor := by
  refine tracks_accept (by simp) (fun _ _ _ => ?_) (tracks_pure none) id
  exact tracks_expression.loosen.map

end DataClass.Grammar.Reader
