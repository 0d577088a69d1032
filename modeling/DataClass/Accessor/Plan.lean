import DataClass.Accessor.Pair
import DataClass.Accessor.Settings
import DataClass.Accessor.Tagged
namespace DataClass.Accessor

/-! Planning a round: which accessors to add to which class, before anything is changed. -/

/-- The names of the accessors planned so far, each with the field that it is for. -/
abbrev Planned := List (String × String)

/-- Where the name of an accessor stands. -/
inductive Slot where
  | free
  /-- The same method is there already. -/
  | identical
  | taken (obstacle : Obstacle)
deriving DecidableEq

def slotFor (decl : Class) (planned : Planned) (method : Method) : Slot :=
  match planned.lookup method.name with
  | some field => .taken (.plannedFor field)
  | none =>
      let sameName := decl.methods.filter (·.name == method.name)
      if sameName.isEmpty then .free
      else if sameName.any (·.alike method) then .identical
      else .taken .existingMethod

def keepingNote (owner field accessor : String) (span : Span) : Diagnostic :=
  ⟨.note, "Keeping existing '" ++ accessor ++ "' in '" ++ owner ++
    "'; not synthesizing it for field '" ++ field ++ "'", span, [], []⟩

/-- What is planned for one field: the methods to add, what is reported, and whether the field was
turned down. -/
structure FieldPlan where
  accepted : List Method
  diagnostics : List Diagnostic
  isRejected : Bool

namespace FieldPlan

def rejected (fault : FieldFault) (span : Span) : FieldPlan :=
  ⟨[], [fault.toDiagnostic span], true⟩

/-- The names taken by the plan. -/
def names (field : String) (plan : FieldPlan) : Planned :=
  plan.accepted.map fun method => (method.name, field)

def members (span : Span) (plan : FieldPlan) : List Member :=
  plan.accepted.map (.method span)

end FieldPlan

/-- Go through the accessors of a field. Under the policy `error` the first conflict turns the field
down with all of its accessors; under `skip` a conflict only leaves out one of them. -/
def settle (policy : ConflictPolicy) (decl : Class) (planned : Planned) (field : String)
    (span : Span) : List Method → FieldPlan
  | [] => ⟨[], [], false⟩
  | method :: rest =>
      let later := settle policy decl planned field span rest
      match slotFor decl planned method with
      | .free =>
          if later.isRejected then later
          else { later with accepted := method :: later.accepted }
      | .identical => later
      | .taken obstacle =>
          match policy with
          | .error => .rejected (.conflict decl.name field method.name obstacle) span
          | .skip =>
              { later with
                diagnostics := keepingNote decl.name field method.name span :: later.diagnostics }

/-- Plan the accessors of one field. -/
def planField (policy : ConflictPolicy) (decl : Class) (planned : Planned) (entry : FieldMember) :
    FieldPlan :=
  match synthesize decl.name entry.field entry.span with
  | .error fault => .rejected fault entry.span
  | .ok pair => settle policy decl planned entry.field.name entry.span pair.methods

/-- What is planned for one class: the members to add, what is reported, and the number of fields
that were turned down. -/
structure ClassPlan where
  members : List Member
  diagnostics : List Diagnostic
  errors : Nat

/-- Plan the accessors of fields in their order. -/
def planFields (policy : ConflictPolicy) (decl : Class) (planned : Planned) :
    List FieldMember → ClassPlan
  | [] => ⟨[], [], 0⟩
  | entry :: rest =>
      let plan := planField policy decl planned entry
      let later := planFields policy decl (plan.names entry.field.name ++ planned) rest
      ⟨plan.members entry.span ++ later.members, plan.diagnostics ++ later.diagnostics,
        (if plan.isRejected then 1 else 0) + later.errors⟩

def planClass (policy : ConflictPolicy) (decl : Class) : ClassPlan :=
  planFields policy decl [] decl.fields

/-- Members to add to the class at an address. -/
structure Edit where
  path : Path
  members : List Member

structure RoundPlan where
  edits : List Edit
  typesProcessed : Nat
  errors : Nat
  diagnostics : List Diagnostic

/-- Plan the accessors of several classes in their order. -/
def planClasses (policy : ConflictPolicy) : List TaggedClass → RoundPlan
  | [] => ⟨[], 0, 0, []⟩
  | entry :: rest =>
      let plan := planClass policy entry.decl
      let later := planClasses policy rest
      ⟨⟨entry.path, plan.members⟩ :: later.edits, later.typesProcessed + 1,
        plan.errors + later.errors, plan.diagnostics ++ later.diagnostics⟩

/-- Plan a round over the marked classes of a program. -/
def planRound (settings : Settings) (program : Program) (elements : List TaggedElement) :
    RoundPlan :=
  planClasses settings.policy (taggedClasses program elements)

end DataClass.Accessor
