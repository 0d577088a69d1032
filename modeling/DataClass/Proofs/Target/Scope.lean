import DataClass.Proofs.Target.Code
import Mathlib.Data.List.Forall2
namespace DataClass.Target

open Lowering

/-! Which variable a name denotes in a statement of the target language, and which statements are
reached. A block has a scope of its own; statements one behind the other share theirs. -/

namespace Code

/-! ### Scopes -/

/-- The variables that statements declare for what stands behind them, the latest first. -/
def bound : List Code → List String
  | [] => []
  | .declare binding _ _ :: rest => bound rest ++ [binding.name]
  | .assign _ _ :: rest | .giveBack _ :: rest | .choose _ _ _ :: rest | .repeatWhile _ _ :: rest
  | .evaluate _ :: rest => bound rest

mutual

/-- The variables in scope in a statement and in each one inside of it, the innermost first. -/
def scopes (outer : List String) : Code → List (List String)
  | .choose _ thenCode none => outer :: scopesAll outer thenCode
  | .choose _ thenCode (some elseCode) =>
      outer :: (scopesAll outer thenCode ++ scopesAll outer elseCode)
  | .repeatWhile _ body => outer :: scopesAll outer body
  | .declare _ _ _ | .assign _ _ | .giveBack _ | .evaluate _ => [outer]

def scopesAll (outer : List String) : List Code → List (List String)
  | [] => []
  | code :: rest => code.scopes outer ++ scopesAll (bound [code] ++ outer) rest

end

theorem bound_append (first second : List Code) :
    bound (first ++ second) = bound second ++ bound first := by
  induction first with
  | nil => rw [List.nil_append, bound, List.append_nil]
  | cons code rest ih => cases code <;> simp [bound, ih]

theorem mem_bound_flatten {word : String} {parts : List (List Code)} :
    word ∈ bound parts.flatten ↔ ∃ part ∈ parts, word ∈ bound part := by
  induction parts with
  | nil => simp [bound]
  | cons part rest ih => simp [bound_append, ih, or_comm]

/-- Statements are in the scope of those in front of them. -/
theorem scopesAll_append (outer : List String) (first second : List Code) :
    scopesAll outer (first ++ second) =
      scopesAll outer first ++ scopesAll (bound first ++ outer) second := by
  induction first generalizing outer with
  | nil => rfl
  | cons code rest ih =>
      have again : bound (code :: rest) = bound rest ++ bound [code] := bound_append [code] rest
      rw [List.cons_append, scopesAll, scopesAll, ih, again, List.append_assoc, List.append_assoc]

mutual

/-- What is in scope around a statement is in scope everywhere inside. -/
theorem scopes_append (inner outer : List String) : (code : Code) →
    code.scopes (inner ++ outer) = (code.scopes inner).map (· ++ outer)
  | .choose _ thenCode none => by
      rw [scopes, scopes, scopesAll_append_outer inner outer thenCode, List.map_cons]
  | .choose _ thenCode (some elseCode) => by
      rw [scopes, scopes, scopesAll_append_outer inner outer thenCode,
        scopesAll_append_outer inner outer elseCode, List.map_cons, List.map_append]
  | .repeatWhile _ body => by
      rw [scopes, scopes, scopesAll_append_outer inner outer body, List.map_cons]
  | .declare _ _ _ | .assign _ _ | .giveBack _ | .evaluate _ => rfl

theorem scopesAll_append_outer (inner outer : List String) : (code : List Code) →
    scopesAll (inner ++ outer) code = (scopesAll inner code).map (· ++ outer)
  | [] => rfl
  | code :: rest => by
      rw [scopesAll, scopesAll, scopes_append inner outer code, ← List.append_assoc,
        scopesAll_append_outer (bound [code] ++ inner) outer rest, List.map_append]

end

end Code

/-! ### What a name denotes -/

/-- The innermost variable of a name, told by the number of variables around it. -/
def denoted? : List String → String → Option Nat
  | [], _ => none
  | name :: around, word => if name = word then some around.length else denoted? around word

theorem denoted?_lt {scope : List String} {word : String} {level : Nat}
    (found : denoted? scope word = some level) : level < scope.length := by
  induction scope with
  | nil => cases found
  | cons name around ih =>
      rw [denoted?] at found
      split at found
      · obtain rfl := Option.some.inj found
        exact Nat.lt_succ_self _
      · exact Nat.lt_succ_of_lt (ih found)

theorem denoted?_isSome {scope : List String} {word : String} (listed : word ∈ scope) :
    ∃ level, denoted? scope word = some level := by
  induction scope with
  | nil => cases listed
  | cons name around ih =>
      rw [denoted?]
      split
      · exact ⟨_, rfl⟩
      · next other => exact ih ((List.mem_cons.mp listed).resolve_left (Ne.symm other))

theorem denoted?_of_not_mem {inner outer : List String} {word : String} (other : word ∉ inner) :
    denoted? (inner ++ outer) word = denoted? outer word := by
  induction inner with
  | nil => rfl
  | cons name around ih =>
      have here : name ≠ word := fun same => other (same ▸ List.mem_cons_self)
      rw [List.cons_append, denoted?, if_neg here,
        ih fun held => other (List.mem_cons_of_mem name held)]

theorem le_of_denoted? {inner outer : List String} {word : String} {level : Nat}
    (listed : word ∈ inner) (found : denoted? (inner ++ outer) word = some level) :
    outer.length ≤ level := by
  induction inner with
  | nil => cases listed
  | cons name around ih =>
      rw [List.cons_append, denoted?] at found
      split at found
      · obtain rfl := Option.some.inj found
        simp
      · next other => exact ih ((List.mem_cons.mp listed).resolve_left (Ne.symm other)) found

/-- A variable is hidden exactly by those of its name. -/
theorem denoted?_append_iff {inner outer : List String} {word : String} (listed : word ∈ outer) :
    denoted? (inner ++ outer) word = denoted? outer word ↔ word ∉ inner := by
  refine ⟨fun same hidden => ?_, denoted?_of_not_mem⟩
  obtain ⟨level, found⟩ := denoted?_isSome listed
  have below := denoted?_lt found
  have above := le_of_denoted? hidden (same.trans found)
  omega

namespace Code

/-! ### Runs -/

/-- How a run of statements is over: it has come through them, or a `return` has left them. -/
inductive Ending where
  | through
  | left
deriving DecidableEq

def isStep : Code → Bool
  | .declare _ _ _ | .assign _ _ | .evaluate _ => true
  | .giveBack _ | .choose _ _ _ | .repeatWhile _ _ => false

/-- A run of statements, whatever the conditions turn out to be: the statements that are reached in
their order, and how it is over. -/
inductive Runs : List Code → List Code → Ending → Prop where
  | nil : Runs [] [] .through
  | step {code : Code} {rest trace : List Code} {ending : Ending} (single : code.isStep = true)
      (later : Runs rest trace ending) : Runs (code :: rest) (code :: trace) ending
  | giveBack (value : Option Tree) (rest : List Code) :
      Runs (.giveBack value :: rest) [.giveBack value] .left
  | choose {condition : Tree} {thenCode : List Code} {elseCode : Option (List Code)}
      {branch rest front trace : List Code} {ending : Ending}
      (taken : branch = thenCode ∨ branch = elseCode.getD []) (inside : Runs branch front .through)
      (later : Runs rest trace ending) :
      Runs (.choose condition thenCode elseCode :: rest) (front ++ trace) ending
  | chooseLeft {condition : Tree} {thenCode : List Code} {elseCode : Option (List Code)}
      {branch rest trace : List Code} (taken : branch = thenCode ∨ branch = elseCode.getD [])
      (inside : Runs branch trace .left) :
      Runs (.choose condition thenCode elseCode :: rest) trace .left
  | stop {condition : Tree} {body rest trace : List Code} {ending : Ending}
      (later : Runs rest trace ending) : Runs (.repeatWhile condition body :: rest) trace ending
  | again {condition : Tree} {body rest front trace : List Code} {ending : Ending}
      (inside : Runs body front .through)
      (later : Runs (.repeatWhile condition body :: rest) trace ending) :
      Runs (.repeatWhile condition body :: rest) (front ++ trace) ending
  | repeatLeft {condition : Tree} {body rest trace : List Code} (inside : Runs body trace .left) :
      Runs (.repeatWhile condition body :: rest) trace .left

theorem Runs.append {first second front back : List Code} {ending : Ending}
    (here : Runs first front .through) (later : Runs second back ending) :
    Runs (first ++ second) (front ++ back) ending := by
  generalize outcome : Ending.through = ended at here
  induction here with
  | nil => exact later
  | step single _ ih => exact .step single (ih outcome)
  | giveBack => cases outcome
  | choose taken inside _ _ ih =>
      rw [List.append_assoc]
      exact .choose taken inside (ih outcome)
  | chooseLeft => cases outcome
  | stop _ ih => exact .stop (ih outcome)
  | again inside _ _ ih =>
      rw [List.append_assoc]
      exact .again inside (ih outcome)
  | repeatLeft => cases outcome

/-- What has been left is left whatever stands behind it. -/
theorem Runs.left_append {first front : List Code} (here : Runs first front .left)
    (second : List Code) : Runs (first ++ second) front .left := by
  generalize outcome : Ending.left = ended at here
  induction here with
  | nil => cases outcome
  | step single _ ih => exact .step single (ih outcome)
  | giveBack value rest => exact .giveBack value (rest ++ second)
  | choose taken inside _ _ ih => exact .choose taken inside (ih outcome)
  | chooseLeft taken inside => exact .chooseLeft taken inside
  | stop _ ih => exact .stop (ih outcome)
  | again inside _ _ ih => exact .again inside (ih outcome)
  | repeatLeft inside => exact .repeatLeft inside

theorem Runs.of_cons {code : Code} {rest trace : List Code} {ending : Ending}
    (run : Runs (code :: rest) trace ending) :
    (∃ front back, Runs [code] front .through ∧ Runs rest back ending ∧ trace = front ++ back) ∨
      ending = .left ∧ Runs [code] trace .left := by
  generalize whole : code :: rest = all at run
  induction run with
  | nil => cases whole
  | step single later =>
      cases whole
      exact .inl ⟨[code], _, .step single .nil, later, rfl⟩
  | giveBack value =>
      cases whole
      exact .inr ⟨rfl, .giveBack value []⟩
  | choose taken inside later =>
      cases whole
      refine .inl ⟨_, _, .choose taken inside .nil, later, ?_⟩
      rw [List.append_nil]
  | chooseLeft taken inside =>
      cases whole
      exact .inr ⟨rfl, .chooseLeft taken inside⟩
  | stop later =>
      cases whole
      exact .inl ⟨[], _, .stop .nil, later, rfl⟩
  | again inside _ _ ih =>
      -- The loop is entered once more, and what stands behind it has the rest of the run.
      cases whole
      rcases ih rfl with ⟨front, back, here, behind, rfl⟩ | ⟨outcome, here⟩
      · exact .inl ⟨_, back, .again inside here, behind, (List.append_assoc ..).symm⟩
      · exact .inr ⟨outcome, .again inside here⟩
  | repeatLeft inside =>
      cases whole
      exact .inr ⟨rfl, .repeatLeft inside⟩

/-- A run of statements one behind the other runs through the first ones, or it leaves them. -/
theorem runs_append {first second trace : List Code} {ending : Ending} :
    Runs (first ++ second) trace ending ↔
      (∃ front back, Runs first front .through ∧ Runs second back ending ∧ trace = front ++ back) ∨
        ending = .left ∧ Runs first trace .left := by
  refine ⟨fun run => ?_, ?_⟩
  · induction first generalizing trace with
    | nil => exact .inl ⟨[], trace, .nil, run, rfl⟩
    | cons code rest ih =>
        rcases run.of_cons with ⟨front, back, here, behind, rfl⟩ | ⟨outcome, here⟩
        · rcases ih behind with ⟨middle, last, inner, later, rfl⟩ | ⟨outcome, inner⟩
          · exact .inl ⟨_, last, here.append inner, later, (List.append_assoc ..).symm⟩
          · exact .inr ⟨outcome, here.append inner⟩
        · exact .inr ⟨outcome, here.left_append rest⟩
  · rintro (⟨front, back, here, later, rfl⟩ | ⟨rfl, here⟩)
    · exact here.append later
    · exact here.left_append second

/-- Parts one behind the other are run one by one up to the first one that is left. -/
theorem runs_parts {parts : List (List Code)} {last trace : List Code} {ending : Ending} :
    Runs (parts.flatten ++ last) trace ending ↔
      (∃ traces back, List.Forall₂ (Runs · · .through) parts traces ∧ Runs last back ending ∧
        trace = traces.flatten ++ back) ∨
      ending = .left ∧ ∃ before part behind traces back, parts = before ++ part :: behind ∧
        List.Forall₂ (Runs · · .through) before traces ∧ Runs part back .left ∧
        trace = traces.flatten ++ back := by
  induction parts generalizing trace with
  | nil => simp
  | cons part rest ih =>
      rw [List.flatten_cons, List.append_assoc, runs_append]
      constructor
      · rintro (⟨front, back, here, later, rfl⟩ | ⟨outcome, here⟩)
        · rcases ih.mp later with ⟨traces, end', each, inner, rfl⟩ |
            ⟨outcome, before, part', behind, traces, end', rfl, each, inner, rfl⟩
          · exact .inl ⟨front :: traces, end', .cons here each, inner, (List.append_assoc ..).symm⟩
          · exact .inr ⟨outcome, part :: before, part', behind, front :: traces, end', rfl,
              .cons here each, inner, (List.append_assoc ..).symm⟩
        · exact .inr ⟨outcome, [], part, rest, [], trace, rfl, .nil, here, rfl⟩
      · rintro (⟨traces, back, each, inner, rfl⟩ |
          ⟨outcome, before, part', behind, traces, back, whole, each, inner, rfl⟩)
        · obtain ⟨front, others, here, later, rfl⟩ := List.forall₂_cons_left_iff.mp each
          exact .inl ⟨front, others.flatten ++ back, here,
            ih.mpr (.inl ⟨others, back, later, inner, rfl⟩), List.append_assoc ..⟩
        · cases before with
          | nil =>
              obtain ⟨rfl, rfl⟩ := List.cons.inj whole
              obtain rfl := List.forall₂_nil_left_iff.mp each
              exact .inr ⟨outcome, inner⟩
          | cons first before =>
              obtain ⟨rfl, rfl⟩ := List.cons.inj whole
              obtain ⟨front, others, here, later, rfl⟩ := List.forall₂_cons_left_iff.mp each
              exact .inl ⟨front, others.flatten ++ back, here,
                ih.mpr (.inr ⟨outcome, before, part', behind, others, back, rfl, later, inner, rfl⟩),
                List.append_assoc ..⟩

mutual

/-- Whether there is a `return` at any depth. -/
def returns : Code → Bool
  | .giveBack _ => true
  | .choose _ thenCode none => returnsAny thenCode
  | .choose _ thenCode (some elseCode) => returnsAny thenCode || returnsAny elseCode
  | .repeatWhile _ body => returnsAny body
  | .declare _ _ _ | .assign _ _ | .evaluate _ => false

def returnsAny : List Code → Bool
  | [] => false
  | code :: rest => code.returns || returnsAny rest

end

/-- Statements without a `return` are never left. -/
theorem Runs.eq_through {code trace : List Code} {ending : Ending} (run : Runs code trace ending)
    (silent : returnsAny code = false) : ending = .through := by
  have branch {condition : Tree} {thenCode rest taken : List Code} {elseCode : Option (List Code)}
      (silent : returnsAny (.choose condition thenCode elseCode :: rest) = false)
      (among : taken = thenCode ∨ taken = elseCode.getD []) :
      returnsAny taken = false ∧ returnsAny rest = false := by
    cases elseCode <;> rcases among with rfl | rfl <;>
      simp_all [returnsAny, returns]
  induction run with
  | nil => rfl
  | @step code _ _ _ single _ ih =>
      rw [returnsAny, Bool.or_eq_false_iff] at silent
      exact ih silent.2
  | giveBack value rest => cases silent
  | choose taken _ _ _ ih => exact ih (branch silent taken).2
  | chooseLeft taken _ ih => cases ih (branch silent taken).1
  | stop _ ih =>
      rw [returnsAny, Bool.or_eq_false_iff] at silent
      exact ih silent.2
  | again _ _ _ ih => exact ih silent
  | repeatLeft _ ih =>
      rw [returnsAny, Bool.or_eq_false_iff, returns] at silent
      cases ih silent.1

/-- A run that leaves statements ends with a `return`. -/
theorem Runs.exists_giveBack {code trace : List Code} (run : Runs code trace .left) :
    ∃ front value, trace = front ++ [.giveBack value] := by
  generalize outcome : Ending.left = ended at run
  induction run with
  | nil => cases outcome
  | @step first _ _ _ _ _ ih =>
      obtain ⟨front, value, rfl⟩ := ih outcome
      exact ⟨first :: front, value, rfl⟩
  | giveBack value rest => exact ⟨[], value, rfl⟩
  | choose _ _ _ _ ih | again _ _ _ ih =>
      obtain ⟨front, value, rfl⟩ := ih outcome
      exact ⟨_, value, (List.append_assoc ..).symm⟩
  | chooseLeft _ _ ih | stop _ ih | repeatLeft _ ih => exact ih outcome

end Code

end DataClass.Target
