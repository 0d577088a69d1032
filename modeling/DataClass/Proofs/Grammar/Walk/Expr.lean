import DataClass.Proofs.Grammar.Soundness.Expr
import DataClass.Proofs.Grammar.Walk.Lists
namespace DataClass.Grammar.Trial

open Walk
open Reader (binaryAt? unary? operand? precedences chainedComparison)

/-! Walking along expressions. -/

mutual

def expression : Nat → Trial Expr
  | 0 => endless
  | turns + 1 => binary turns precedences

def binary : Nat → List Nat → Trial Expr
  | 0, _ => endless
  | turns + 1, [] => signed turns
  | turns + 1, level :: tighter => do
      let left ← binary turns tighter
      operatorsBehind level tighter turns left

def operatorsBehind (level : Nat) (tighter : List Nat) : Nat → Expr → Trial Expr
  | 0, _ => endless
  | turns + 1, left => do
      match binaryAt? level (← currentKind) with
      | none => return left
      | some op =>
          advance
          let right ← binary turns tighter
          if op.operator.associativity = .none then
            match binaryAt? level (← currentKind) with
            | none => return left.join op right
            | some _ =>
                advance
                throw (chainedComparison (← previousSpan))
          else operatorsBehind level tighter turns (left.join op right)

def signed : Nat → Trial Expr
  | 0 => endless
  | turns + 1 => do
      let sign ← current
      match unary? sign.kind with
      | none => accessed turns
      | some op =>
          advance
          let inner ← signed turns
          return .unary ⟨sign.span.start, inner.span.stop⟩ op inner

def accessed : Nat → Trial Expr
  | 0 => endless
  | turns + 1 => do
      let base ← operand turns
      accesses turns base

def accesses : Nat → Expr → Trial Expr
  | 0, _ => endless
  | turns + 1, base => do
      if ← accept (.punctuation .dot) then
        let name ← identifier
        if ← isNext (.punctuation .leftParen) then
          let given ← arguments turns
          accesses turns (.methodCall (← spanFrom base.span.start) base name given)
        else accesses turns (.field (← spanFrom base.span.start) base name)
      else if ← isNext (.punctuation .leftParen) then
        let given ← arguments turns
        accesses turns (.call (← spanFrom base.span.start) base given)
      else return base

def operand : Nat → Trial Expr
  | 0 => endless
  | turns + 1 => do
      let first ← current
      if first.kind = .punctuation .leftParen then
        advance
        let expr ← expression turns
        expect (.punctuation .rightParen) "')' to close parenthesized expression"
        return .paren (← spanFrom first.span.start) expr
      else
        match operand? first with
        | some expr => advance; return expr
        | none => failExpected "expression"

def arguments : Nat → Trial (List Expr)
  | 0 => endless
  | turns + 1 => do
      expect (.punctuation .leftParen) "'(' before arguments"
      if ← accept (.punctuation .rightParen) then return []
      else
        let items ← expressions turns
        expect (.punctuation .rightParen) "')' after arguments"
        return items

def expressions : Nat → Trial (List Expr)
  | 0 => endless
  | turns + 1 => do
      let first ← expression turns
      return first :: (← laterExpressions turns)

def laterExpressions : Nat → Trial (List Expr)
  | 0 => endless
  | turns + 1 => do
      if ← accept (.punctuation .comma) then
        let first ← expression turns
        return first :: (← laterExpressions turns)
      else return []

end

def expressionAfterEquals (turns : Nat) : Trial (Option Expr) := do
  if ← accept (.operator .eq) then return some (← expression turns) else return none

variable {course : Course} {spot : course.Spot} {bound turns : Nat} {inner tight : Reader Expr}
  {given : Reader (List Expr)}

theorem mirrors_operatorsBehind (level : Nat) (tighter : List Nat)
    (operands : MirrorsUpTo course True bound (binary · tighter) tight)
    (enough : spot.ahead ≤ turns) (within : spot.ahead ≤ bound) (left : Expr) :
    Mirrors False (operatorsBehind level tighter · left)
      (Reader.operatorsBehind tight level turns left) spot := by
  refine mirrors_loop (operatorsBehind level tighter) (Reader.operatorsBehind tight level)
    (fun turns left spot within again => ?_) enough within left
  refine mirrors_currentKind ?_
  cases found : binaryAt? level spot.cursor.current.kind with
  | none => exact mirrors_pure left
  | some op =>
      refine mirrors_advance (Reader.binaryAt?_some found).1 (by simp) fun next further => ?_
      have within := Nat.le_trans (Nat.le_of_lt (Course.Spot.ahead_lt further)) within
      refine (operands next within).bind (fun right last onward _ => ?_) False.elim
      split
      · refine mirrors_currentKind ?_
        cases chained : binaryAt? level last.cursor.current.kind with
        | none => exact mirrors_pure _
        | some op' =>
            refine mirrors_advance (Reader.binaryAt?_some chained).1 (by simp) fun _ _ => ?_
            exact mirrors_previousSpan fun _ => mirrors_throw _
      · exact again _ last (Nat.lt_of_lt_of_le further onward)

theorem mirrors_binaryWith (operands : MirrorsUpTo course True bound signed tight) (levels : List Nat) :
    MirrorsUpTo course True bound (binary · levels) (Reader.binaryWith tight levels) := by
  induction levels with
  | nil => exact fun spot within => (operands spot within).turn
  | cons level tighter ih =>
      intro spot within
      refine Mirrors.turn ((ih spot within).bind
        (fun left next onward _ => mirrors_remaining fun _ enough => ?_) id)
      have within := Nat.le_trans (Course.Spot.ahead_le onward) within
      exact mirrors_operatorsBehind level tighter ih enough within left

theorem mirrors_signed (operands : MirrorsUpTo course True bound accessed tight)
    (enough : spot.ahead ≤ turns) (within : spot.ahead ≤ bound) :
    Mirrors True signed (Reader.signed tight turns) spot := by
  refine mirrors_loop (fun turns (_ : Unit) => signed turns) (fun turns _ => Reader.signed tight turns)
    (fun turns _ spot within again => ?_) enough within ()
  refine mirrors_current ?_
  cases found : unary? spot.cursor.current.kind with
  | none => exact operands spot within
  | some op =>
      exact mirrors_advance (Reader.unary?_some found) (by simp) fun next further =>
        (again () next further).loosen.map

theorem mirrors_accesses (inside : MirrorsUpTo course True bound arguments given)
    (enough : spot.ahead ≤ turns) (within : spot.ahead ≤ bound) (base : Expr) :
    Mirrors False (accesses · base) (Reader.accesses given turns base) spot := by
  refine mirrors_loop accesses (Reader.accesses given) (fun turns base spot within again => ?_) enough
    within base
  refine mirrors_accept (by simp) (fun next further => ?_) ?_
  · refine mirrors_identifier.bind (fun name last onward _ => ?_) False.elim
    have further := Nat.lt_of_lt_of_le further onward
    refine mirrors_isNext ?_
    split
    · have within := Nat.le_trans (Nat.le_of_lt (Course.Spot.ahead_lt further)) within
      refine (inside last within).bind (fun found final onward _ => ?_) False.elim
      exact mirrors_spanFrom _ fun _ => again _ final (Nat.lt_of_lt_of_le further onward)
    · exact mirrors_spanFrom _ fun _ => again _ last further
  · refine mirrors_isNext ?_
    split
    · refine (inside spot within).bind (fun found last _ further => ?_) False.elim
      exact mirrors_spanFrom _ fun _ => again _ last (further trivial)
    · exact mirrors_pure base

theorem mirrors_argumentsWith (inside : MirrorsUpTo course True bound expression inner) :
    MirrorsUpTo course True (bound + 1) arguments (Reader.argumentsWith inner) := fun _ within =>
  mirrors_parenthesized (fun _ => rfl) (fun _ => rfl) (fun _ => rfl) inside within

theorem mirrors_operandWith (inside : MirrorsUpTo course True bound expression inner) :
    MirrorsUpTo course True (bound + 1) operand (Reader.operandWith inner) := by
  intro spot within
  refine Mirrors.turn (mirrors_current ?_)
  split
  · next opening =>
      refine mirrors_advance opening (by simp) fun next further => ?_
      have shorter := Course.Spot.ahead_lt further
      refine (inside next (by omega)).bind (fun _ _ _ _ => ?_) False.elim
      exact (mirrors_expect _ (by simp)).loosen.placed
  · cases found : operand? spot.cursor.current with
    | none => exact mirrors_failExpected _
    | some expr =>
        obtain ⟨_, _, _, _, more⟩ := Reader.operand?_some found
        exact mirrors_advance rfl more fun _ _ => mirrors_pure expr

theorem mirrors_accessedWith (inside : MirrorsUpTo course True bound expression inner) :
    MirrorsUpTo course True (bound + 1) accessed (Reader.accessedWith inner) := by
  intro spot within
  refine Mirrors.turn ((mirrors_operandWith inside spot within).bind
    (fun base next onward _ => mirrors_remaining fun _ enough => ?_) id)
  have within := Nat.le_trans (Course.Spot.ahead_le onward) within
  exact mirrors_accesses (mirrors_argumentsWith inside) enough within base

theorem mirrors_expressionWith (inside : MirrorsUpTo course True bound expression inner) :
    MirrorsUpTo course True (bound + 1) expression (Reader.expressionWith inner) := by
  have operands : MirrorsUpTo course True (bound + 1) signed (Reader.signedWith inner) :=
    fun _ within => mirrors_remaining fun _ enough =>
      mirrors_signed (mirrors_accessedWith inside) enough within
  exact fun spot within => (mirrors_binaryWith operands precedences spot within).turn

theorem mirrors_expression : Mirrors True expression Reader.expression spot :=
  mirrors_remaining fun turns enough => mirrors_layers (fun _ => rfl)
    (fun _ _ inside => mirrors_expressionWith inside) (turns + 1) spot (Nat.le_succ_of_le enough)

theorem mirrors_expressionAfterEquals :
    Mirrors False expressionAfterEquals Reader.expressionAfterEquals spot :=
  mirrors_accept (by simp) (fun _ _ => mirrors_expression.loosen.map) (mirrors_pure none)

end DataClass.Grammar.Trial
