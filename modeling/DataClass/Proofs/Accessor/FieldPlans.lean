import DataClass.Proofs.Accessor.Rounds
namespace DataClass.Accessor

/-! What a round plans, field by field. A field is planned with the names that the fields before it
have taken; what a round reports and adds is made of the plans of its fields, in their order. -/

structure PlannedField where
  entry : FieldMember
  plan : FieldPlan

namespace PlannedField

def members (field : PlannedField) : List Member := field.plan.members field.entry.span

end PlannedField

/-- The plans of fields in their order, behind some names that are taken already. -/
def fieldPlans (policy : ConflictPolicy) (decl : Class) (planned : Planned) :
    List FieldMember → List PlannedField
  | [] => []
  | entry :: rest =>
      let plan := planField policy decl planned entry
      ⟨entry, plan⟩ :: fieldPlans policy decl (plan.names entry.field.name ++ planned) rest

namespace TaggedClass

/-- The plans of all direct fields of a marked class. -/
def fieldPlans (policy : ConflictPolicy) (type : TaggedClass) : List PlannedField :=
  Accessor.fieldPlans policy type.decl [] type.decl.fields

end TaggedClass

variable {policy : ConflictPolicy} {decl : Class} {planned : Planned} {entries : List FieldMember}

theorem map_entry_fieldPlans : (fieldPlans policy decl planned entries).map (·.entry) = entries := by
  induction entries generalizing planned with
  | nil => rfl
  | cons entry rest ih => simp [fieldPlans, ih]

theorem planFields_eq :
    let plans := fieldPlans policy decl planned entries
    planFields policy decl planned entries =
      ⟨plans.flatMap (·.members), plans.flatMap (·.plan.diagnostics),
        plans.countP (·.plan.isRejected)⟩ := by
  induction entries generalizing planned with
  | nil => rfl
  | cons entry rest ih =>
      simp only [planFields, fieldPlans, ih, List.flatMap_cons, PlannedField.members,
        List.countP_cons, Nat.add_comm]

/-- Every field is planned on its own, against the class and some names that are taken. -/
theorem exists_planField {field : PlannedField}
    (inside : field ∈ fieldPlans policy decl planned entries) :
    ∃ taken, field.plan = planField policy decl taken field.entry := by
  induction entries generalizing planned with
  | nil => cases inside
  | cons entry rest ih =>
      rcases List.mem_cons.mp inside with rfl | later
      · exact ⟨planned, rfl⟩
      · exact ih later

theorem methods_planFields :
    (planFields policy decl planned entries).methods =
      (fieldPlans policy decl planned entries).flatMap (·.plan.accepted) := by
  induction entries generalizing planned with
  | nil => rfl
  | cons entry rest ih => rw [planFields_methods, fieldPlans, List.flatMap_cons, ih]

theorem diagnostics_planClasses (policy : ConflictPolicy) (types : List TaggedClass) :
    (planClasses policy types).diagnostics =
      types.flatMap fun type => (type.fieldPlans policy).flatMap (·.plan.diagnostics) := by
  induction types with
  | nil => rfl
  | cons type rest ih =>
      simp only [planClasses, planClass, planFields_eq, ih, List.flatMap_cons,
        TaggedClass.fieldPlans]

/-- All that a round reports, field by field. -/
theorem diagnostics_round (settings : Settings) (program : Program)
    (elements : List TaggedElement) :
    (round settings program elements).diagnostics =
      (taggedClasses program elements).flatMap fun type =>
        (type.fieldPlans settings.policy).flatMap (·.plan.diagnostics) :=
  diagnostics_planClasses settings.policy _

end DataClass.Accessor
