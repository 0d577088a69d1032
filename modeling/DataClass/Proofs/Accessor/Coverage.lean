import DataClass.Proofs.Accessor.FieldPlans
import DataClass.Proofs.Accessor.Reports
namespace DataClass

/-! What becomes of every field of a processed class, under each of the two policies.

`settle_of_clear`, `settle_of_conflict` and `settle_skip` say what the plan of a field is: without a
conflict it does not depend on the policy, with one it is a single error or some notes. -/

namespace Field

/-- A field for which no accessors can be made. -/
def Malformed (field : Field) : Prop :=
  field.type = none ∨ (∃ type, field.type = some type ∧ type.isVoid = true) ∨
    isIdentifier field.name = false

end Field

namespace Accessor

variable {policy : ConflictPolicy} {decl : Class} {planned : Planned}

theorem synthesize_malformed {owner : String} {field : Field} {span : Span} {fault : FieldFault}
    (failed : synthesize owner field span = .error fault) : field.Malformed := by
  cases valid : isIdentifier field.name with
  | false => exact .inr (.inr valid)
  | true =>
      cases declared : field.type with
      | none => exact .inl declared
      | some type =>
          cases void : type.isVoid with
          | true => exact .inr (.inl ⟨type, declared, void⟩)
          | false => simp [synthesize, valid, declared, void] at failed

/-- No accessor in a list meets a conflict. -/
def Clear (decl : Class) (planned : Planned) (methods : List Method) : Prop :=
  ∀ method ∈ methods, ∀ obstacle, slotFor decl planned method ≠ .taken obstacle

theorem settle_of_clear {methods : List Method} (field : String) (span : Span)
    (clear : Clear decl planned methods) :
    settle policy decl planned field span methods =
      ⟨methods.filter (slotFor decl planned · = .free), [], false⟩ := by
  induction methods with
  | nil => rfl
  | cons method rest ih =>
      have later := ih fun other inside => clear other (List.mem_cons_of_mem _ inside)
      cases slot : slotFor decl planned method with
      | free => simp [settle, slot, later]
      | identical => simp [settle, slot, later]
      | taken obstacle => exact absurd slot (clear method List.mem_cons_self obstacle)

theorem settle_of_conflict {methods : List Method} (field : String) (span : Span)
    (conflict : ¬ Clear decl planned methods) :
    ∃ accessor obstacle, settle .error decl planned field span methods =
      .rejected (.conflict decl.name field accessor obstacle) span := by
  induction methods with
  | nil => exact absurd (by simp [Clear]) conflict
  | cons method rest ih =>
      cases slot : slotFor decl planned method with
      | taken obstacle => exact ⟨method.name, obstacle, by simp [settle, slot]⟩
      | _ =>
          -- The accessor itself has its place, so the conflict lies behind it.
          obtain ⟨accessor, obstacle, later⟩ := ih fun clear => conflict fun other inside => by
            rcases List.mem_cons.mp inside with rfl | behind
            · simp [slot]
            · exact clear other behind
          exact ⟨accessor, obstacle, by simp [settle, slot, later, FieldPlan.rejected]⟩

theorem settle_skip (decl : Class) (planned : Planned) (field : String) (span : Span)
    (methods : List Method) :
    ∀ report ∈ (settle .skip decl planned field span methods).diagnostics, report.isError = false := by
  intro report inside
  rcases settle_cases .skip decl planned field span methods with ⟨_, _, strict, _⟩ | ⟨settled, _⟩
  · cases strict
  · have quiet : anyError (settle .skip decl planned field span methods).diagnostics =
        (settle .skip decl planned field span methods).isRejected := anyError_settle
    rw [settled, anyError, List.any_eq_false] at quiet
    simpa using quiet report inside

/-- The field has both of its accessors among the methods of its class, and nothing is said
about it. -/
structure Equipped (methods : List Method) (owner : String) (field : PlannedField) : Prop where
  accessors : ∃ pair, synthesize owner field.entry.field field.entry.span = .ok pair ∧
    ∀ accessor ∈ pair.methods, ∃ present ∈ methods, present.alike accessor = true
  silent : field.plan.diagnostics = []

/-- One error is reported at the place of the field, and none of its accessors is added. -/
structure TurnedDown (field : PlannedField) : Prop where
  reported : ∃ report, field.plan.diagnostics = [report] ∧ report.isError = true ∧
    report.span = field.entry.span
  nothing : field.plan.accepted = []

theorem turnedDown_of_rejected {field : PlannedField} {fault : FieldFault}
    (plan : field.plan = .rejected fault field.entry.span) : TurnedDown field := by
  rw [FieldPlan.rejected] at plan
  exact ⟨⟨_, by rw [plan], rfl, rfl⟩, by rw [plan]⟩

theorem Equipped.not_turnedDown {methods : List Method} {owner : String} {field : PlannedField}
    (equipped : Equipped methods owner field) : ¬ TurnedDown field := by
  rintro ⟨⟨report, only, _⟩, _⟩
  rw [equipped.silent] at only
  cases only

theorem alike_self {owner : String} {field : Field} {span : Span} {pair : Pair}
    (made : synthesize owner field span = .ok pair) {accessor : Method}
    (inside : accessor ∈ pair.methods) : accessor.alike accessor = true :=
  (Method.alike_iff_erase (plain_of_mem_pair made inside) (plain_of_mem_pair made inside)).mpr rfl

/-- Where conflicts are errors, a field gets both accessors in silence or is turned down. -/
theorem equipped_or_turnedDown {methods : List Method} {field : PlannedField}
    (plan : field.plan = planField .error decl planned field.entry)
    (old : ∀ method ∈ decl.methods, method ∈ methods)
    (new : ∀ method ∈ field.plan.accepted, method ∈ methods) :
    Equipped methods decl.name field ∨ TurnedDown field := by
  unfold planField at plan
  cases made : synthesize decl.name field.entry.field field.entry.span with
  | error fault =>
      rw [made] at plan
      exact .inr (turnedDown_of_rejected plan)
  | ok pair =>
      rw [made] at plan
      dsimp only at plan
      by_cases clear : Clear decl planned pair.methods
      · rw [settle_of_clear _ _ clear] at plan
        refine .inl ⟨⟨pair, made, fun accessor inside => ?_⟩, by rw [plan]⟩
        cases slot : slotFor decl planned accessor with
        | free =>
            have accepted : accessor ∈ field.plan.accepted := by
              rw [plan]
              exact List.mem_filter.mpr ⟨inside, decide_eq_true slot⟩
            exact ⟨accessor, new accessor accepted, alike_self made inside⟩
        | identical =>
            obtain ⟨_, present, there, _, alike⟩ := slotFor_eq_identical_iff.mp slot
            exact ⟨present, old present there, alike⟩
        | taken obstacle => exact absurd slot (clear accessor inside obstacle)
      · obtain ⟨accessor, obstacle, rejected⟩ :=
          settle_of_conflict field.entry.field.name field.entry.span clear
        exact .inr (turnedDown_of_rejected (plan.trans rejected))

/-- Where conflicts are passed over, only a malformed field is in error. -/
theorem malformed_of_error {entry : FieldMember} {report : Diagnostic}
    (reported : report ∈ (planField .skip decl planned entry).diagnostics)
    (error : report.isError = true) : entry.field.Malformed := by
  unfold planField at reported
  cases made : synthesize decl.name entry.field entry.span with
  | error fault => exact synthesize_malformed made
  | ok pair =>
      rw [made] at reported
      simp [settle_skip _ _ _ _ _ report reported] at error

/-- Where conflicts are passed over, both names of every other field belong to a method in the end. -/
theorem named_of_skip {entry : FieldMember} (inside : entry ∈ decl.fields) {pair : Pair}
    (made : synthesize decl.name entry.field entry.span = .ok pair) (kind : AccessorKind) :
    ∃ method ∈ decl.methods ++ (planClass .skip decl).methods,
      method.name = accessorName kind entry.field.name := by
  obtain ⟨accessor, held, named⟩ := exists_accessor made kind
  rcases (planClass_settles .skip decl).2 entry inside pair made with covered | ⟨strict, _⟩
  · rw [← named]
    rcases covered accessor held with new | old
    · obtain ⟨method, added, same⟩ := List.mem_map.mp new
      exact ⟨method, List.mem_append_right _ added, same⟩
    · obtain ⟨method, there, same⟩ := List.mem_map.mp old
      exact ⟨method, List.mem_append_left _ there, same⟩
  · cases strict

/-- The report of a conflict. -/
def IsConflict (report : Diagnostic) : Prop :=
  ∃ owner field accessor obstacle span,
    report = (FieldFault.conflict owner field accessor obstacle).toDiagnostic span

theorem planField_skip {entry : FieldMember}
    (peaceful : ∀ report ∈ (planField .error decl planned entry).diagnostics, ¬ IsConflict report) :
    planField .skip decl planned entry = planField .error decl planned entry := by
  unfold planField at peaceful ⊢
  cases made : synthesize decl.name entry.field entry.span with
  | error fault => rfl
  | ok pair =>
      rw [made] at peaceful
      dsimp only at peaceful ⊢
      by_cases clear : Clear decl planned pair.methods
      · rw [settle_of_clear _ _ clear, settle_of_clear _ _ clear]
      · obtain ⟨accessor, obstacle, rejected⟩ :=
          settle_of_conflict entry.field.name entry.span clear
        rw [rejected] at peaceful
        exact absurd ⟨_, _, _, _, _, rfl⟩ (peaceful _ List.mem_cons_self)

theorem planFields_skip {entries : List FieldMember}
    (peaceful : ∀ report ∈ (planFields .error decl planned entries).diagnostics,
      ¬ IsConflict report) :
    planFields .skip decl planned entries = planFields .error decl planned entries := by
  induction entries generalizing planned with
  | nil => rfl
  | cons entry rest ih =>
      simp only [planFields, List.forall_mem_append] at peaceful
      simp only [planFields, planField_skip peaceful.1, ih peaceful.2]

theorem planClasses_skip {types : List TaggedClass}
    (peaceful : ∀ report ∈ (planClasses .error types).diagnostics, ¬ IsConflict report) :
    planClasses .skip types = planClasses .error types := by
  induction types with
  | nil => rfl
  | cons type rest ih =>
      simp only [planClasses, planClass, List.forall_mem_append] at peaceful
      simp only [planClasses, planClass, planFields_skip peaceful.1, ih peaceful.2]

/-- Without a conflict the policies do the same. -/
theorem round_skip {settings : Settings} {program : Program} {elements : List TaggedElement}
    (peaceful : ∀ report ∈ (round { settings with policy := .error } program elements).diagnostics,
      ¬ IsConflict report) :
    round { settings with policy := .skip } program elements =
      round { settings with policy := .error } program elements := by
  have plan : planRound { settings with policy := .skip } program elements =
      planRound { settings with policy := .error } program elements := planClasses_skip peaceful
  simp only [round, plan]

/-- What a round leaves at the address of a processed class: its methods, and behind them those that
were planned for its fields. -/
theorem exists_after_round (settings : Settings) {program : Program}
    {elements : List TaggedElement} {type : TaggedClass}
    (inside : type ∈ taggedClasses program elements) :
    ∃ after, (round settings program elements).program.classAt? type.path = some after ∧
      after.methods = type.decl.methods ++ (planClass settings.policy type.decl).methods := by
  refine ⟨_, ?_, (extend_additions inside).2.2⟩
  rw [round_program]
  exact Program.classAt?_extend_of_some _ (classAt?_of_mem_taggedClasses inside)

/-- What becomes of every field. The reports of a round and the methods that it adds belong to the
fields of the processed classes. Where conflicts are errors, either the class ends up with both
accessors of a field and nothing is reported for it, or exactly one error is reported at its place and
nothing is added for it. Where they are passed over, an error means that the field is malformed, and
for every other field both names belong to a method in the end. Without a conflict there is no
difference between the two. -/
theorem round_covers (settings : Settings) (program : Program) (elements : List TaggedElement) :
    (round settings program elements).diagnostics =
      (taggedClasses program elements).flatMap (fun type =>
        (type.fieldPlans settings.policy).flatMap (·.plan.diagnostics)) ∧
    (∀ type ∈ taggedClasses program elements,
      (type.fieldPlans settings.policy).map (·.entry) = type.decl.fields ∧
      ∃ after, (round settings program elements).program.classAt? type.path = some after ∧
        after.methods = type.decl.methods ++
          (type.fieldPlans settings.policy).flatMap (·.plan.accepted) ∧
        ∀ field ∈ type.fieldPlans settings.policy,
          (settings.policy = .error →
            (Equipped after.methods type.decl.name field ↔ ¬ TurnedDown field)) ∧
          (settings.policy = .skip →
            (∀ report ∈ field.plan.diagnostics, report.isError = true →
              field.entry.field.Malformed) ∧
            (¬ field.entry.field.Malformed → ∀ kind, ∃ method ∈ after.methods,
              method.name = accessorName kind field.entry.field.name))) ∧
    ((∀ report ∈ (round { settings with policy := .error } program elements).diagnostics,
        ¬ IsConflict report) →
      round { settings with policy := .skip } program elements =
        round { settings with policy := .error } program elements) := by
  refine ⟨diagnostics_round settings program elements, fun type inside => ?_, round_skip⟩
  obtain ⟨after, found, methods⟩ := exists_after_round settings inside
  have planned : (planClass settings.policy type.decl).methods =
      (type.fieldPlans settings.policy).flatMap (·.plan.accepted) := methods_planFields
  refine ⟨map_entry_fieldPlans, after, found, by rw [methods, planned], fun field held => ?_⟩
  obtain ⟨taken, plan⟩ := exists_planField held
  constructor
  · intro strict
    refine ⟨Equipped.not_turnedDown, fun kept => ?_⟩
    rw [strict] at plan
    refine (equipped_or_turnedDown plan (fun method there => ?_) fun method added => ?_).resolve_right
      kept
    · rw [methods]
      exact List.mem_append_left _ there
    · rw [methods, planned]
      exact List.mem_append_right _ (List.mem_flatMap.mpr ⟨field, held, added⟩)
  · intro lenient
    rw [lenient] at plan
    constructor
    · intro report reported error
      rw [plan] at reported
      exact malformed_of_error reported error
    · intro sound kind
      have entries : (type.fieldPlans settings.policy).map (·.entry) = type.decl.fields :=
        map_entry_fieldPlans
      have listed : field.entry ∈ type.decl.fields := entries ▸ List.mem_map_of_mem held
      cases made : synthesize type.decl.name field.entry.field field.entry.span with
      | error fault => exact absurd (synthesize_malformed made) sound
      | ok pair =>
          rw [methods, lenient]
          exact named_of_skip listed made kind

end Accessor

end DataClass
