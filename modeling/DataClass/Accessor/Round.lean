import DataClass.Accessor.Plan
import DataClass.Grammar.Declaration
namespace DataClass.Accessor

/-! Rounds: carrying out a plan, and repeating until nothing new is marked. -/

/-- Add the members of an edit, and tell how many were added. An edit without members, or for an
address without a class, changes nothing. -/
def applyEdit (program : Program) (edit : Edit) : Program × Nat :=
  if edit.members.isEmpty then (program, 0)
  else
    match program.classAt? edit.path with
    | none => (program, 0)
    | some _ => (program.updateAt (Class.append edit.members) edit.path, edit.members.length)

/-- Carry out edits in their order, and tell how many members were added. -/
def applyEdits (program : Program) : List Edit → Program × Nat
  | [] => (program, 0)
  | edit :: rest =>
      let (program, added) := applyEdit program edit
      let (program, more) := applyEdits program rest
      (program, added + more)

structure RoundOutcome where
  claimed : Bool
  typesProcessed : Nat
  methodsAdded : Nat
  errors : Nat
deriving DecidableEq

/-- What a round leaves behind. -/
structure Round where
  program : Program
  outcome : RoundOutcome
  diagnostics : List Diagnostic

/-- Run one round over marked elements. -/
def round (settings : Settings) (program : Program) (elements : List TaggedElement) : Round :=
  let plan := planRound settings program elements
  let (program, added) := applyEdits program plan.edits
  ⟨program, ⟨settings.claimsMarker, plan.typesProcessed, added, plan.errors⟩, plan.diagnostics⟩

structure RunOutcome where
  /-- How many rounds had something to do. -/
  rounds : Nat
  typesProcessed : Nat
  methodsAdded : Nat
  errors : Nat
  /-- Whether the run ended because nothing new was marked. -/
  converged : Bool
deriving DecidableEq

namespace RunOutcome

def settled : RunOutcome := ⟨0, 0, 0, 0, true⟩

def stopped : RunOutcome := ⟨0, 0, 0, 1, false⟩

/-- The outcome of a round followed by the outcome of the rounds behind it. -/
def after (round : RoundOutcome) (later : RunOutcome) : RunOutcome :=
  ⟨later.rounds + 1, round.typesProcessed + later.typesProcessed,
    round.methodsAdded + later.methodsAdded, round.errors + later.errors, later.converged⟩

end RunOutcome

/-- What a run leaves behind. -/
structure Run where
  program : Program
  outcome : RunOutcome
  diagnostics : List Diagnostic

namespace Run

/-- Whether anything was reported that makes the run fail. -/
def hasErrors (run : Run) : Bool := run.diagnostics.any (·.isError)

end Run

def unsettled (maxRounds pending : Nat) (span : Span) : Diagnostic :=
  ⟨.synthesisError, "Accessor synthesis did not settle after " ++ toString maxRounds ++ " rounds (" ++
    toString pending ++ " tagged elements pending)", span, [], []⟩

/-- The marked elements at addresses that have not been processed. -/
def freshElements (settings : Settings) (processed : List Path) (program : Program) :
    List TaggedElement :=
  (tagged (.ofText settings.marker) program).filter fun element =>
    !processed.contains element.path

/-- Run rounds, at most as many as `left`, until no marked element is fresh. -/
def runFrom (settings : Settings) (processed : List Path) (program : Program) (left : Nat) : Run :=
  match freshElements settings processed program with
  | [] => ⟨program, .settled, []⟩
  | first :: rest =>
      match left with
      | 0 => ⟨program, .stopped, [unsettled settings.maxRounds (rest.length + 1) first.span]⟩
      | left + 1 =>
          let elements := first :: rest
          let here := round settings program elements
          let later := runFrom settings (processed ++ elements.map (·.path)) here.program left
          ⟨later.program, .after here.outcome later.outcome, here.diagnostics ++ later.diagnostics⟩

/-- Run rounds over a program until nothing new is marked. -/
def run (settings : Settings) (program : Program) : Run :=
  runFrom settings [] program settings.maxRounds

/-- Read a program and run the pass over it. What the pass finds wrong is part of its result. -/
def expand (settings : Settings) (source : String) : Except (List Diagnostic) Run := do
  return run settings (← Program.ofSource source)

end DataClass.Accessor
