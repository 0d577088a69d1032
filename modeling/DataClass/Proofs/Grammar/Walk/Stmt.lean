import DataClass.Grammar.Stmt
import DataClass.Proofs.Grammar.Walk.Bodies
import DataClass.Proofs.Grammar.Walk.Expr
import DataClass.Proofs.Grammar.Walk.TypeRef
namespace DataClass.Grammar.Trial

open Walk
open Reader (invalidTarget)

/-! Walking along statements and blocks. -/

def declareFrom (turns start : Nat) : Trial Stmt := do
  let name ← identifier
  let type ← typeAfterColon turns
  let value ← expressionAfterEquals turns
  expect (.punctuation .semicolon) "';' after let"
  return .declare (← spanFrom start) name type value

def giveBackFrom (turns start : Nat) : Trial Stmt := do
  if ← accept (.punctuation .semicolon) then
    return .giveBack (← spanFrom start) none
  else
    let value ← expression turns
    expect (.punctuation .semicolon) "';' after return"
    return .giveBack (← spanFrom start) (some value)

def evaluateFrom (turns start : Nat) : Trial Stmt := do
  let expr ← expression turns
  if ← accept (.operator .eq) then
    if expr.isAssignable then
      let value ← expression turns
      expect (.punctuation .semicolon) "';' after assignment"
      return .assign (← spanFrom start) expr value
    else throw (invalidTarget expr.span)
  else
    expect (.punctuation .semicolon) "';' after expression"
    return .evaluate (← spanFrom start) expr

mutual

def statement : Nat → Trial Stmt
  | 0 => endless
  | turns + 1 => do
      let first ← current
      let start := first.span.start
      match first.kind with
      | .keyword .letWord => advance; declareFrom turns start
      | .keyword .returnWord => advance; giveBackFrom turns start
      | .keyword .ifWord => advance; chooseFrom turns start
      | .keyword .whileWord => advance; repeatFrom turns start
      | _ => evaluateFrom turns start

def chooseFrom : Nat → Nat → Trial Stmt
  | 0, _ => endless
  | turns + 1, start => do
      let condition ← expression turns
      let thenBody ← block turns
      let elseBody ← elseBody turns
      return .choose (← spanFrom start) condition thenBody elseBody

def elseBody : Nat → Trial (Option (List Stmt))
  | 0 => endless
  | turns + 1 => do
      if ← accept (.keyword .elseWord) then
        if ← isNext (.keyword .ifWord) then
          let nested ← statement turns
          return some [nested]
        else
          let body ← block turns
          return some body
      else return none

def repeatFrom : Nat → Nat → Trial Stmt
  | 0, _ => endless
  | turns + 1, start => do
      let condition ← expression turns
      let body ← block turns
      return .repeatWhile (← spanFrom start) condition body

def block : Nat → Trial (List Stmt)
  | 0 => endless
  | turns + 1 => do
      expect (.punctuation .leftBrace) "'\x7b' to open block"
      let body ← statements turns
      expect (.punctuation .rightBrace) "'\x7d' to close block"
      return body

/-- The statements up to the end of a block. Faulty ones are reported and left out. -/
def statements : Nat → Trial (List Stmt)
  | 0 => endless
  | turns + 1 => (do
      if Recovery.statements.isEnd (← currentKind) then return .ok []
      else
        match ← (statement turns).run with
        | .ok first => (do return first :: (← statements turns) : Trial (List Stmt)).run
        | .error fault =>
            report fault
            recover .statements turns
            (statements turns).run
      : Walk (Except Diagnostic (List Stmt)))

end

variable {course : Course} {spot : course.Spot} {bound : Nat} {inner : Reader Stmt}

theorem mirrors_declareFrom (start : Nat) :
    Mirrors True (declareFrom · start) (Reader.declareFrom start) spot := by
  refine mirrors_identifier.bind (fun _ _ _ _ => ?_) id
  refine mirrors_typeAfterColon.bind (fun _ _ _ _ => ?_) False.elim
  refine mirrors_expressionAfterEquals.bind (fun _ _ _ _ => ?_) False.elim
  exact (mirrors_expect _ (by simp)).loosen.placed

theorem mirrors_giveBackFrom (start : Nat) :
    Mirrors True (giveBackFrom · start) (Reader.giveBackFrom start) spot := by
  refine mirrors_accept (by simp) (fun _ _ => mirrors_spanFrom _ fun _ => mirrors_pure _) ?_
  exact mirrors_expression.bind (fun _ _ _ _ => (mirrors_expect _ (by simp)).loosen.placed) id

theorem mirrors_evaluateFrom (start : Nat) :
    Mirrors True (evaluateFrom · start) (Reader.evaluateFrom start) spot := by
  refine mirrors_expression.bind (fun expr _ _ _ => ?_) id
  refine mirrors_accept (by simp) (fun _ _ => ?_) ?_
  · split
    · refine mirrors_expression.bind (fun _ _ _ _ => ?_) False.elim
      exact (mirrors_expect _ (by simp)).loosen.placed
    · exact mirrors_throw _
  · exact (mirrors_expect _ (by simp)).loosen.placed

theorem mirrors_blockWith (inside : MirrorsUpTo course True bound statement inner)
    (within : spot.ahead ≤ bound) : Mirrors True block (Reader.blockWith inner) spot :=
  mirrors_braced ⟨fun _ => rfl, fun _ _ => rfl, fun _ _ => rfl⟩ (fun _ => rfl) inside within

theorem mirrors_elseWith (inside : MirrorsUpTo course True bound statement inner)
    (within : spot.ahead ≤ bound) : Mirrors False elseBody (Reader.elseWith inner) spot := by
  refine Mirrors.turn (mirrors_accept (by simp) (fun next further => ?_) (mirrors_pure none))
  have within := Nat.le_trans (Nat.le_of_lt (Course.Spot.ahead_lt further)) within
  refine mirrors_isNext ?_
  split
  · exact (inside next within).loosen.map
  · exact (mirrors_blockWith inside within).loosen.map

theorem mirrors_chooseFrom (inside : MirrorsUpTo course True bound statement inner)
    (within : spot.ahead ≤ bound) (start : Nat) :
    Mirrors True (chooseFrom · start) (Reader.chooseFrom inner start) spot := by
  refine Mirrors.turn (mirrors_expression.bind (fun _ next onward _ => ?_) id)
  have within := Nat.le_trans (Course.Spot.ahead_le onward) within
  refine (mirrors_blockWith inside within).bind (fun _ last onward _ => ?_) False.elim
  exact (mirrors_elseWith inside (Nat.le_trans (Course.Spot.ahead_le onward) within)).placed

theorem mirrors_repeatFrom (inside : MirrorsUpTo course True bound statement inner)
    (within : spot.ahead ≤ bound) (start : Nat) :
    Mirrors True (repeatFrom · start) (Reader.repeatFrom inner start) spot := by
  refine Mirrors.turn (mirrors_expression.bind (fun _ next onward _ => ?_) id)
  have within := Nat.le_trans (Course.Spot.ahead_le onward) within
  exact (mirrors_blockWith inside within).loosen.placed

theorem mirrors_statementWith (inside : MirrorsUpTo course True bound statement inner) :
    MirrorsUpTo course True (bound + 1) statement (Reader.statementWith inner) := by
  intro spot within
  have below : ∀ {next : course.Spot}, spot.position < next.position → next.ahead ≤ bound :=
    fun further => Nat.le_of_lt_succ (Nat.lt_of_lt_of_le (Course.Spot.ahead_lt further) within)
  refine Mirrors.turn (mirrors_current ?_)
  cases word : spot.cursor.current.kind with
  | keyword keyword =>
      cases keyword with
      | letWord => exact mirrors_advance word (by simp) fun _ _ => (mirrors_declareFrom _).loosen
      | returnWord => exact mirrors_advance word (by simp) fun _ _ => (mirrors_giveBackFrom _).loosen
      | ifWord =>
          exact mirrors_advance word (by simp) fun _ further =>
            (mirrors_chooseFrom inside (below further) _).loosen
      | whileWord =>
          exact mirrors_advance word (by simp) fun _ further =>
            (mirrors_repeatFrom inside (below further) _).loosen
      | _ => exact mirrors_evaluateFrom _
  | _ => exact mirrors_evaluateFrom _

theorem mirrors_statement : Mirrors True statement Reader.statement spot :=
  mirrors_remaining fun turns enough => mirrors_layers (fun _ => rfl)
    (fun _ _ inside => mirrors_statementWith inside) (turns + 1) spot (Nat.le_succ_of_le enough)

theorem mirrors_block : Mirrors True block Reader.block spot :=
  mirrors_blockWith (fun _ _ => mirrors_statement) (Nat.le_refl _)

end DataClass.Grammar.Trial
