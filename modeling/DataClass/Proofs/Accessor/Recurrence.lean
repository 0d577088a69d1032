import DataClass.Proofs.Accessor.Isolation
import DataClass.Proofs.Accessor.Names
namespace DataClass.Accessor

/-! Errors of a second round. A field competes with the accessors planned for its siblings in the first
round, by their names, and with real methods in the second one, which are compared as a whole. -/

/-- A field that an error is about. -/
structure FaultyField where
  owner : String
  field : String
  span : Span
deriving DecidableEq

/-- The class and the field that a fault is about. -/
def FieldFault.subject : FieldFault → String × String
  | .missingType owner field | .voidType owner field | .invalidName owner field
  | .conflict owner field _ _ => (owner, field)

/-- The report is an error about the field. -/
def FaultyField.IsReportedBy (faulty : FaultyField) (report : Diagnostic) : Prop :=
  ∃ fault : FieldFault, fault.subject = (faulty.owner, faulty.field) ∧
    report = fault.toDiagnostic faulty.span

namespace PlannedField

def isFaulty (field : PlannedField) : Bool := anyError field.plan.diagnostics

def faulty (owner : String) (field : PlannedField) : FaultyField :=
  ⟨owner, field.entry.field.name, field.entry.span⟩

/-- The fields have the same name and the same type, at whatever places. -/
def isLike (left right : PlannedField) : Bool :=
  left.entry.field.name == right.entry.field.name &&
    agreesOption (TypeRef.agrees fun _ _ => true) left.entry.field.type right.entry.field.type

/-- Some field of the class with this name and this type was given an accessor. -/
def repeats (plans : List PlannedField) (field : PlannedField) : Bool :=
  plans.any fun twin => !twin.plan.accepted.isEmpty && twin.isLike field

end PlannedField

namespace TaggedClass

/-- The fields of a marked class that a round reports an error about, in their order. -/
def faultyFields (policy : ConflictPolicy) (type : TaggedClass) : List FaultyField :=
  ((type.fieldPlans policy).filter (·.isFaulty)).map (·.faulty type.decl.name)

/-- Those of them whose name and type no field has that was given an accessor. -/
def lastingFields (policy : ConflictPolicy) (type : TaggedClass) : List FaultyField :=
  ((type.fieldPlans policy).filter fun field =>
    !field.repeats (type.fieldPlans policy) && field.isFaulty).map (·.faulty type.decl.name)

end TaggedClass

/-- All fields that a round reports an error about, class by class. -/
def faultyFields (settings : Settings) (program : Program) (elements : List TaggedElement) :
    List FaultyField :=
  (taggedClasses program elements).flatMap (·.faultyFields settings.policy)

variable {policy : ConflictPolicy} {decl again : Class} {planned : Planned}
  {entries : List FieldMember}

/-! ### What is reported -/

theorem isReportedBy_settle (field : String) (span : Span) (methods : List Method) :
    List.Forall₂ FaultyField.IsReportedBy
      (if anyError (settle policy decl planned field span methods).diagnostics then
        [⟨decl.name, field, span⟩] else [])
      ((settle policy decl planned field span methods).diagnostics.filter (·.isError)) := by
  have one (accessor : String) (obstacle : Obstacle) :
      List.Forall₂ FaultyField.IsReportedBy [⟨decl.name, field, span⟩]
        [(FieldFault.conflict decl.name field accessor obstacle).toDiagnostic span] :=
    .cons ⟨_, rfl, rfl⟩ .nil
  cases policy with
  | skip =>
      have quiet := settle_skip decl planned field span methods
      have none : (settle .skip decl planned field span methods).diagnostics.filter (·.isError) = [] :=
        List.filter_eq_nil_iff.mpr fun report inside => by simp [quiet report inside]
      rw [none, if_neg (by simpa [anyError] using quiet)]
      exact .nil
  | error =>
      by_cases clear : Clear decl planned methods
      · rw [settle_of_clear _ _ clear]
        exact .nil
      · obtain ⟨accessor, obstacle, rejected⟩ := settle_of_conflict field span clear
        rw [rejected]
        exact one accessor obstacle

theorem subject_of_synthesize {owner : String} {field : Field} {span : Span} {fault : FieldFault}
    (failed : synthesize owner field span = .error fault) : fault.subject = (owner, field.name) := by
  unfold synthesize at failed
  split at failed
  · split at failed
    · exact Except.error.inj failed ▸ rfl
    · split at failed
      · exact Except.error.inj failed ▸ rfl
      · cases failed
  · exact Except.error.inj failed ▸ rfl

/-- A field has one error or none. -/
theorem isReportedBy_planField (policy : ConflictPolicy) (decl : Class) (planned : Planned)
    (entry : FieldMember) :
    List.Forall₂ FaultyField.IsReportedBy
      (if anyError (planField policy decl planned entry).diagnostics then
        [⟨decl.name, entry.field.name, entry.span⟩] else [])
      ((planField policy decl planned entry).diagnostics.filter (·.isError)) := by
  unfold planField
  cases made : synthesize decl.name entry.field entry.span with
  | error fault => exact .cons ⟨fault, subject_of_synthesize made, rfl⟩ .nil
  | ok pair => exact isReportedBy_settle entry.field.name entry.span pair.methods

theorem isReportedBy_fieldPlans (policy : ConflictPolicy) (decl : Class) (planned : Planned)
    (entries : List FieldMember) :
    List.Forall₂ FaultyField.IsReportedBy
      (((fieldPlans policy decl planned entries).filter (·.isFaulty)).map (·.faulty decl.name))
      (((fieldPlans policy decl planned entries).flatMap (·.plan.diagnostics)).filter (·.isError)) := by
  induction entries generalizing planned with
  | nil => exact .nil
  | cons entry rest ih =>
      have here := isReportedBy_planField policy decl planned entry
      rw [fieldPlans, List.flatMap_cons, List.filter_append, List.filter_cons]
      unfold PlannedField.isFaulty
      split
      · next wrong =>
        rw [if_pos wrong] at here
        exact List.rel_append here (ih _)
      · next right =>
        rw [if_neg right] at here
        exact List.rel_append here (ih _)

theorem isReportedBy_round (settings : Settings) (program : Program) (elements : List TaggedElement) :
    List.Forall₂ FaultyField.IsReportedBy (faultyFields settings program elements)
      ((round settings program elements).diagnostics.filter (·.isError)) := by
  rw [diagnostics_round, faultyFields, List.filter_flatMap]
  induction taggedClasses program elements with
  | nil => exact .nil
  | cons type rest ih =>
      exact List.rel_append (isReportedBy_fieldPlans settings.policy type.decl [] type.decl.fields) ih

/-! ### Accessors of fields that are alike -/

theorem isLike_iff_outline {left right : PlannedField} :
    left.isLike right = true ↔ left.entry.outline = right.entry.outline := by
  have typed : agreesOption (TypeRef.agrees fun _ _ => true) left.entry.field.type
      right.entry.field.type = true ↔
        left.entry.field.type.map TypeRef.erase = right.entry.field.type.map TypeRef.erase :=
    agreesOption_iff fun type _ other _ => TypeRef.agrees_iff type other
  simp [PlannedField.isLike, typed, FieldMember.outline]

theorem repeats_iff {plans : List PlannedField} {field : PlannedField} :
    field.repeats plans = true ↔
      ∃ twin ∈ plans, twin.plan.accepted ≠ [] ∧ twin.entry.outline = field.entry.outline := by
  simp [PlannedField.repeats, isLike_iff_outline]

variable {owner : String} {entry twin : FieldMember} {method other : Method}

theorem mem_offered_iff : method ∈ offered owner entry ↔
    ∃ type, isIdentifier entry.field.name = true ∧ entry.field.type = some type ∧
      type.isVoid = false ∧ (method = getter entry.field.name type entry.span ∨
        method = setter entry.field.name type entry.span) := by
  unfold offered
  constructor
  · intro inside
    cases made : synthesize owner entry.field entry.span with
    | error fault => simp [made] at inside
    | ok pair =>
        obtain ⟨type, valid, typed, value, rfl⟩ := synthesize_eq_ok made
        rw [made] at inside
        exact ⟨type, valid, typed, value, by simpa [Pair.methods] using inside⟩
  · rintro ⟨type, valid, typed, value, same⟩
    simpa [synthesize, valid, typed, value, Pair.methods] using same

theorem plain_of_mem_offered (inside : method ∈ offered owner entry) :
    Plain (Stmt.bodyKinds method.body) := by
  obtain ⟨type, _, _, _, rfl | rfl⟩ := mem_offered_iff.mp inside
  · exact plain_getter entry.field.name type entry.span
  · exact plain_setter entry.field.name type entry.span

theorem agrees_thisField (left : Expr) (name : String) (span place : Span) :
    left.agrees (fun _ _ => true) (thisField name span) =
      left.agrees (fun _ _ => true) (thisField name place) := by
  cases left with
  | field _ base _ => cases base <;> rfl
  | _ => rfl

theorem agrees_type {type other : TypeRef} (same : type.erase = other.erase) (left : TypeRef) :
    left.agrees (fun _ _ => true) type = left.agrees (fun _ _ => true) other := by
  rw [Bool.eq_iff_iff, TypeRef.agrees_iff, TypeRef.agrees_iff, same]

/-- Which methods are the same as an accessor does not hang on where the accessor stands. -/
theorem alike_getter {type other : TypeRef} (same : type.erase = other.erase) (present : Method)
    (name : String) (span place : Span) :
    present.alike (getter name type span) = present.alike (getter name other place) := by
  have body : Stmt.agreesAll (fun _ _ => true) present.body (getter name type span).body =
      Stmt.agreesAll (fun _ _ => true) present.body (getter name other place).body := by
    rcases present.body with _ | ⟨stmt, rest⟩
    · rfl
    cases stmt with
    | giveBack _ value =>
        cases value with
        | none => rfl
        | some value => simp only [getter, Stmt.agreesAll, Stmt.agrees, agreesOption,
            agrees_thisField value name span place]
    | choose _ _ _ elseBody => cases elseBody <;> rfl
    | _ => rfl
  simp only [Method.alike, Method.agrees, body]
  simp only [getter, agrees_type same]

theorem alike_setter {type other : TypeRef} (same : type.erase = other.erase) (present : Method)
    (name : String) (span place : Span) :
    present.alike (setter name type span) = present.alike (setter name other place) := by
  have params : agreesList (Param.agrees fun _ _ => true) present.params (setter name type span).params =
      agreesList (Param.agrees fun _ _ => true) present.params (setter name other place).params := by
    rcases present.params with _ | ⟨param, rest⟩
    · rfl
    · simp only [setter, agreesList, Param.agrees, agrees_type same]
  have body : Stmt.agreesAll (fun _ _ => true) present.body (setter name type span).body =
      Stmt.agreesAll (fun _ _ => true) present.body (setter name other place).body := by
    rcases present.body with _ | ⟨stmt, rest⟩
    · rfl
    cases stmt with
    | assign _ target value =>
        cases value <;> simp [setter, Stmt.agreesAll, Stmt.agrees, Expr.agrees,
            agrees_thisField target name span place]
    | choose _ _ _ elseBody => cases elseBody <;> rfl
    | _ => rfl
  have returns : (TypeRef.void span).erase = (TypeRef.void place).erase := rfl
  simp only [Method.alike, Method.agrees, params, body]
  simp only [setter, agrees_type returns]
/-- Fields of one name and one type are offered accessors that are like the same methods. -/
theorem exists_offered_of_outline (same : twin.outline = entry.outline)
    (inside : method ∈ offered owner entry) :
    ∃ other ∈ offered owner twin, ∀ present : Method, present.alike other = present.alike method := by
  obtain ⟨type, valid, typed, value, which⟩ := mem_offered_iff.mp inside
  obtain ⟨named, typedToo⟩ := Prod.mk.inj same
  rw [typed] at typedToo
  cases declared : twin.field.type with
  | none => simp [declared] at typedToo
  | some declaredType =>
      have erased : declaredType.erase = type.erase := by simpa [declared] using typedToo
      have valueToo : declaredType.isVoid = false := by
        rw [← TypeRef.isVoid_erase, erased, TypeRef.isVoid_erase, value]
      rw [← named] at valid which
      rcases which with rfl | rfl
      · exact ⟨_, mem_offered_iff.mpr ⟨declaredType, valid, declared, valueToo, .inl rfl⟩,
          fun present => alike_getter erased present _ _ _⟩
      · exact ⟨_, mem_offered_iff.mpr ⟨declaredType, valid, declared, valueToo, .inr rfl⟩,
          fun present => alike_setter erased present _ _ _⟩

/-- An accessor tells the name and the type of its field. -/
theorem outline_of_erase_offered (inside : method ∈ offered owner entry)
    (held : other ∈ offered owner twin) (same : other.erase = method.erase) :
    twin.outline = entry.outline := by
  obtain ⟨type, _, typed, _, which⟩ := mem_offered_iff.mp inside
  obtain ⟨declared, _, typedToo, _, whichToo⟩ := mem_offered_iff.mp held
  rw [FieldMember.outline, FieldMember.outline, typed, typedToo]
  rcases which with rfl | rfl <;> rcases whichToo with rfl | rfl <;>
    simp [getter, setter, thisField] at same ⊢ <;> simp [same]

/-! ### Two rounds over one class -/

/-- Names that are taken when a field is planned belong to accessors of other fields. -/
theorem exists_planField_of_accepted {field : PlannedField}
    (inside : field ∈ fieldPlans policy decl planned entries) :
    ∃ taken, field.plan = planField policy decl taken field.entry ∧
      ∀ name ∈ taken.names, name ∈ planned.names ∨
        ∃ twin ∈ fieldPlans policy decl planned entries, ∃ method ∈ twin.plan.accepted,
          method.name = name := by
  induction entries generalizing planned with
  | nil => cases inside
  | cons entry rest ih =>
      rcases List.mem_cons.mp inside with rfl | later
      · exact ⟨planned, rfl, fun _ => .inl⟩
      · obtain ⟨taken, plan, origin⟩ := ih later
        refine ⟨taken, plan, fun name listed => ?_⟩
        rcases origin name listed with known | ⟨twin, held, found⟩
        · rw [names_append, List.mem_append] at known
          refine known.symm.imp_right fun own => ?_
          obtain ⟨method, accepted, named⟩ := List.mem_map.mp own
          exact ⟨_, List.mem_cons_self, method, accepted, named⟩
        · exact .inr ⟨twin, List.mem_cons_of_mem _ held, found⟩

theorem fieldPlans_of_nothing
    (nothing : ∀ entry ∈ entries, (planField policy decl planned entry).accepted = []) :
    fieldPlans policy decl planned entries =
      entries.map fun entry => ⟨entry, planField policy decl planned entry⟩ := by
  induction entries with
  | nil => rfl
  | cons entry rest ih =>
      obtain ⟨here, later⟩ := List.forall_mem_cons.mp nothing
      have same : (planField policy decl planned entry).names entry.field.name ++ planned = planned := by
        rw [FieldPlan.names, here]
        rfl
      rw [fieldPlans, List.map_cons, same, ih later]

/-- The class as a round leaves it. -/
structure Follows (policy : ConflictPolicy) (decl again : Class) : Prop where
  name : again.name = decl.name
  fields : again.fields = decl.fields
  methods : again.methods = decl.methods ++ (planClass policy decl).methods

namespace Follows

/-- In the second round no field takes a name, so each of them is planned against the methods alone. -/
theorem fieldPlans_eq (follows : Follows policy decl again) :
    fieldPlans policy again [] again.fields =
      (fieldPlans policy decl [] decl.fields).map fun field =>
        ⟨field.entry, planField policy again [] field.entry⟩ := by
  have nothing := planFields_eq_nil_iff.mp
    (planClass_again follows.name follows.fields follows.methods)
  have entries : (fieldPlans policy decl [] decl.fields).map (·.entry) = decl.fields :=
    map_entry_fieldPlans
  rw [fieldPlans_of_nothing nothing, follows.fields]
  conv_lhs => rw [← entries, List.map_map]
  rfl

theorem mem_methods_of_accepted (follows : Follows policy decl again) {field : PlannedField}
    (inside : field ∈ fieldPlans policy decl [] decl.fields) {method : Method}
    (accepted : method ∈ field.plan.accepted) : method ∈ again.methods := by
  rw [follows.methods]
  refine List.mem_append_right _ ?_
  rw [planClass, methods_planFields]
  exact List.mem_flatMap.mpr ⟨field, inside, accepted⟩

/-- A method of the second round is an old one or an accessor, and there is no other one with the name of
an accessor that has been added. -/
theorem eq_of_accepted_name (follows : Follows policy decl again) {field : PlannedField}
    (inside : field ∈ fieldPlans policy decl [] decl.fields) {method present : Method}
    (accepted : method ∈ field.plan.accepted) (there : present ∈ again.methods)
    (same : present.name = method.name) : present = method := by
  have joinable := joinable_planFields policy decl [] decl.fields
  have added : method ∈ (planFields policy decl [] decl.fields).methods := by
    rw [methods_planFields]
    exact List.mem_flatMap.mpr ⟨field, inside, accepted⟩
  rw [follows.methods] at there
  rcases List.mem_append.mp there with old | new
  · exact absurd (same ▸ List.mem_map_of_mem old) (joinable.fresh method added)
  · exact List.inj_on_of_nodup_map joinable.nodup new added same

/-- Nothing has changed for a name that a method of the class had before. -/
theorem mem_old_of_name (follows : Follows policy decl again) {name : String}
    (known : name ∈ decl.methodNames) {present : Method} (there : present ∈ again.methods)
    (same : present.name = name) : present ∈ decl.methods := by
  rw [follows.methods] at there
  refine (List.mem_append.mp there).resolve_right fun new => ?_
  exact (joinable_planFields policy decl [] decl.fields).fresh present new (same ▸ known)

end Follows

theorem name_of_alike {present method : Method} (alike : present.alike method = true) :
    present.name = method.name := by
  simp only [Method.alike, Method.agrees, Bool.and_eq_true, beq_iff_eq] at alike
  exact alike.1.1.1.2

theorem offered_of_synthesize {pair : Pair}
    (made : synthesize owner entry.field entry.span = .ok pair) : offered owner entry = pair.methods := by
  rw [offered, made]

/-- Where conflicts are errors, a field that is not turned down has methods like its accessors in the
second round. -/
theorem exists_alike_of_not_rejected (follows : Follows .error decl again) {field : PlannedField}
    (inside : field ∈ fieldPlans .error decl [] decl.fields) (kept : field.plan.isRejected = false)
    {method : Method} (offers : method ∈ offered decl.name field.entry) :
    ∃ present ∈ again.methods, present.alike method = true := by
  obtain ⟨taken, plan⟩ := exists_planField inside
  have old : ∀ present ∈ decl.methods, present ∈ again.methods := fun present there => by
    rw [follows.methods]
    exact List.mem_append_left _ there
  rcases equipped_or_turnedDown plan old fun _ accepted =>
      follows.mem_methods_of_accepted inside accepted with
    equipped | ⟨⟨report, only, wrong, _⟩, _⟩
  · obtain ⟨pair, made, all⟩ := equipped.accessors
    exact all method (offered_of_synthesize made ▸ offers)
  · have quiet : anyError field.plan.diagnostics = field.plan.isRejected := plan ▸ anyError_planField
    rw [kept, only, anyError, List.any_cons, wrong] at quiet
    cases quiet

theorem not_malformed_of_mem_offered (inside : method ∈ offered owner entry) :
    ¬ entry.field.Malformed := by
  obtain ⟨type, valid, typed, value, _⟩ := mem_offered_iff.mp inside
  simp [Field.Malformed, valid, typed, value]

/-- A field that got an accessor has the same name and type as no malformed field. -/
theorem not_malformed_of_twin {field twin : PlannedField}
    (held : twin ∈ fieldPlans policy decl planned entries) (given : twin.plan.accepted ≠ [])
    (same : twin.entry.outline = field.entry.outline) : ¬ field.entry.field.Malformed := by
  obtain ⟨taken, plan⟩ := exists_planField held
  obtain ⟨method, rest, accepted⟩ := List.exists_cons_of_ne_nil given
  have offers : method ∈ offered decl.name twin.entry :=
    (accepted_sublist policy decl taken twin.entry).subset (plan ▸ accepted ▸ List.mem_cons_self)
  obtain ⟨other, offersToo, _⟩ := exists_offered_of_outline same.symm offers
  exact not_malformed_of_mem_offered offersToo

/-- Without a conflict a name that is known belongs to a method like the one that is asked for. -/
theorem exists_alike_of_clear {methods : List Method} (clear : Clear again [] methods)
    (inside : method ∈ methods) (known : method.name ∈ again.methodNames) :
    ∃ present ∈ again.methods, present.name = method.name ∧ present.alike method = true := by
  cases slot : slotFor again [] method with
  | free => exact absurd known (slotFor_nil_eq_free_iff.mp slot)
  | identical => exact (slotFor_eq_identical_iff.mp slot).2
  | taken obstacle => exact absurd slot (clear method inside obstacle)

/-- A field that fails in the second round has failed in the first one, and no field with its name and
its type got an accessor there. -/
theorem rejected_of_fails_again (follows : Follows policy decl again) {field : PlannedField}
    (inside : field ∈ fieldPlans policy decl [] decl.fields)
    (fails : Fails policy again [] field.entry) :
    field.plan.isRejected = true ∧ field.repeats (fieldPlans policy decl [] decl.fields) = false := by
  obtain ⟨taken, plan⟩ := exists_planField inside
  rw [← Bool.not_eq_true (field.repeats _), repeats_iff]
  rcases fails with malformed | ⟨rfl, conflict⟩
  · constructor
    · rw [plan, isRejected_iff_fails]
      exact .inl malformed
    · rintro ⟨twin, held, given, same⟩
      exact not_malformed_of_twin held given same malformed
  obtain ⟨method, offers, lone⟩ : ∃ method ∈ offered decl.name field.entry,
      ∀ present ∈ again.methods, present.alike method = false := by
    simp only [Clear, not_forall, Decidable.not_not] at conflict
    obtain ⟨method, offers, obstacle, slot⟩ := conflict
    refine ⟨method, follows.name ▸ offers, fun present there => Bool.eq_false_iff.mpr fun alike => ?_⟩
    rcases taken_of_slotFor slot with none | ⟨_, unlike⟩
    · cases none
    · rw [unlike present there (name_of_alike alike)] at alike
      cases alike
  -- A field of this name and type that was not turned down would have left a method like this one.
  have rejected {twin : PlannedField} (held : twin ∈ fieldPlans .error decl [] decl.fields)
      (same : twin.entry.outline = field.entry.outline) : twin.plan.isRejected = true := by
    by_contra kept
    obtain ⟨other, offersToo, like⟩ := exists_offered_of_outline same offers
    obtain ⟨present, there, alike⟩ :=
      exists_alike_of_not_rejected follows held (Bool.not_eq_true _ ▸ kept) offersToo
    rw [like, lone present there] at alike
    cases alike
  refine ⟨rejected inside rfl, ?_⟩
  rintro ⟨twin, held, given, same⟩
  refine given ?_
  obtain ⟨others, planToo⟩ := exists_planField held
  rw [planToo]
  exact accepted_of_isRejected (planToo ▸ rejected held same)

/-- A field that has failed fails again, unless a field with its name and its type got an accessor. -/
theorem fails_again_of_rejected (follows : Follows policy decl again) {field : PlannedField}
    (inside : field ∈ fieldPlans policy decl [] decl.fields) (rejected : field.plan.isRejected = true)
    (alone : field.repeats (fieldPlans policy decl [] decl.fields) = false) :
    Fails policy again [] field.entry := by
  obtain ⟨taken, plan, origin⟩ := exists_planField_of_accepted inside
  rw [← Bool.not_eq_true, repeats_iff] at alone
  rw [plan, isRejected_iff_fails] at rejected
  rcases rejected with malformed | ⟨rfl, conflict⟩
  · exact .inl malformed
  refine .inr ⟨rfl, fun clear => ?_⟩
  simp only [Clear, not_forall, Decidable.not_not] at conflict
  obtain ⟨method, offers, obstacle, slot⟩ := conflict
  rw [follows.name] at clear
  rcases taken_of_slotFor slot with planned | ⟨known, unlike⟩
  · -- The name was planned for another field, whose accessor is a method now.
    rcases origin _ planned with none | ⟨twin, held, other, accepted, sameName⟩
    · cases none
    have there := follows.mem_methods_of_accepted held accepted
    obtain ⟨present, found, named, alike⟩ :=
      exists_alike_of_clear clear offers (sameName ▸ List.mem_map_of_mem there)
    obtain rfl := follows.eq_of_accepted_name held accepted found (named.trans sameName.symm)
    obtain ⟨others, planToo⟩ := exists_planField held
    have offersToo : present ∈ offered decl.name twin.entry :=
      (accepted_sublist .error decl others twin.entry).subset (planToo ▸ accepted)
    have erased := (Method.alike_iff_erase (plain_of_mem_offered offersToo)
      (plain_of_mem_offered offers)).mp alike
    exact alone ⟨twin, held, List.ne_nil_of_mem accepted,
      outline_of_erase_offered offers offersToo erased⟩
  · -- The name belonged to another method, and still does.
    have there : method.name ∈ again.methodNames := by
      rw [Class.methodNames, follows.methods, List.map_append]
      exact List.mem_append_left _ known
    obtain ⟨present, found, named, alike⟩ := exists_alike_of_clear clear offers there
    rw [unlike present (follows.mem_old_of_name known found named) named] at alike
    cases alike

theorem isFaulty_again (follows : Follows policy decl again) {field : PlannedField}
    (inside : field ∈ fieldPlans policy decl [] decl.fields) :
    PlannedField.isFaulty ⟨field.entry, planField policy again [] field.entry⟩ =
      (!field.repeats (fieldPlans policy decl [] decl.fields) && field.isFaulty) := by
  have first : field.isFaulty = field.plan.isRejected := by
    obtain ⟨taken, plan⟩ := exists_planField inside
    rw [PlannedField.isFaulty, plan]
    exact anyError_planField
  rw [first, PlannedField.isFaulty, anyError_planField, Bool.eq_iff_iff, isRejected_iff_fails,
    Bool.and_eq_true, Bool.not_eq_true']
  exact ⟨fun fails => (rejected_of_fails_again follows inside fails).symm,
    fun ⟨alone, rejected⟩ => fails_again_of_rejected follows inside rejected alone⟩

/-! ### Two rounds over a program -/

theorem follows_of_mem (settings : Settings) {program : Program} {elements : List TaggedElement}
    {type : TaggedClass} (inside : type ∈ taggedClasses program elements) :
    Follows settings.policy type.decl
      (type.decl.extend ((additions settings program elements).below type.path)) := by
  obtain ⟨name, fields, methods⟩ := extend_additions inside
  exact ⟨name, fields, methods⟩

theorem faultyFields_again (settings : Settings) (program : Program) (elements : List TaggedElement) :
    faultyFields settings (round settings program elements).program elements =
      (taggedClasses program elements).flatMap (·.lastingFields settings.policy) := by
  rw [faultyFields, taggedClasses_round, List.flatMap_map]
  refine List.flatMap_congr fun type inside => ?_
  have follows := follows_of_mem settings inside
  have each : ∀ field ∈ type.fieldPlans settings.policy,
      (PlannedField.isFaulty ∘ fun field : PlannedField => ⟨field.entry, planField settings.policy
        (type.decl.extend ((additions settings program elements).below type.path)) [] field.entry⟩) field =
      (!field.repeats (type.fieldPlans settings.policy) && field.isFaulty) :=
    fun field held => isFaulty_again follows held
  rw [TaggedClass.faultyFields, TaggedClass.fieldPlans, follows.fieldPlans_eq, List.filter_map,
    List.map_map, TaggedClass.lastingFields, ← List.filter_congr each, follows.name]
  rfl

theorem lastingFields_sublist (policy : ConflictPolicy) (type : TaggedClass) :
    (type.lastingFields policy).Sublist (type.faultyFields policy) := by
  rw [TaggedClass.lastingFields, ← List.filter_filter]
  exact List.filter_sublist.map _

theorem lastingFields_eq_iff (policy : ConflictPolicy) (type : TaggedClass) :
    type.lastingFields policy = type.faultyFields policy ↔
      ∀ field ∈ type.fieldPlans policy, field.isFaulty = true →
        field.repeats (type.fieldPlans policy) = false := by
  have short := (lastingFields_sublist policy type).length_eq
  rw [← short, TaggedClass.lastingFields, TaggedClass.faultyFields, ← List.filter_filter,
    List.length_map, List.length_map, List.length_filter_eq_length_iff]
  simp only [List.mem_filter, and_imp, Bool.not_eq_true']

theorem flatMap_lastingFields_eq_iff (policy : ConflictPolicy) (types : List TaggedClass) :
    types.flatMap (·.lastingFields policy) = types.flatMap (·.faultyFields policy) ↔
      ∀ type ∈ types, type.lastingFields policy = type.faultyFields policy := by
  refine ⟨fun same => ?_, List.flatMap_congr⟩
  have fewer (some : List TaggedClass) : (some.flatMap (·.lastingFields policy)).length ≤
      (some.flatMap (·.faultyFields policy)).length := by
    induction some with
    | nil => exact Nat.le_refl _
    | cons type rest ih =>
        simpa using Nat.add_le_add (lastingFields_sublist policy type).length_le ih
  induction types with
  | nil => nofun
  | cons type rest ih =>
      have here := (lastingFields_sublist policy type).length_le
      have later := fewer rest
      have whole := congrArg List.length same
      simp only [List.flatMap_cons, List.length_append] at whole
      have even : (type.lastingFields policy).length = (type.faultyFields policy).length := by omega
      obtain ⟨first, behind⟩ := List.append_inj same even
      exact List.forall_mem_cons.mpr ⟨first, ih behind⟩

/-- Errors come back, but for repeated fields. What a round reports as errors are its faulty fields, one
error each, with the class, the name and the place of the field. A second round over the same elements
has the same faulty fields in the same order, without those that have the name and the type of a field of
their class that was given an accessor: what was planned for that field is a method now, and the same as
the one that the repeated field needs. So both rounds report errors on the same fields exactly if no
faulty field is such a repetition. Where conflicts are passed over none ever is. -/
theorem faultyFields_round (settings : Settings) (program : Program) (elements : List TaggedElement) :
    let again := (round settings program elements).program
    (∀ program, List.Forall₂ FaultyField.IsReportedBy (faultyFields settings program elements)
      ((round settings program elements).diagnostics.filter (·.isError))) ∧
    faultyFields settings again elements =
      (taggedClasses program elements).flatMap (·.lastingFields settings.policy) ∧
    (faultyFields settings again elements = faultyFields settings program elements ↔
      ∀ type ∈ taggedClasses program elements, ∀ field ∈ type.fieldPlans settings.policy,
        field.isFaulty = true → field.repeats (type.fieldPlans settings.policy) = false) ∧
    (settings.policy = .skip →
      faultyFields settings again elements = faultyFields settings program elements) := by
  have same : faultyFields settings (round settings program elements).program elements =
        faultyFields settings program elements ↔
      ∀ type ∈ taggedClasses program elements, ∀ field ∈ type.fieldPlans settings.policy,
        field.isFaulty = true → field.repeats (type.fieldPlans settings.policy) = false := by
    rw [faultyFields_again, faultyFields, flatMap_lastingFields_eq_iff]
    exact forall₂_congr fun type _ => lastingFields_eq_iff settings.policy type
  refine ⟨fun program => isReportedBy_round settings program elements,
    faultyFields_again settings program elements, same, fun lenient => same.mpr ?_⟩
  intro type _ field inside faulty
  obtain ⟨taken, plan⟩ := exists_planField inside
  rw [PlannedField.isFaulty, plan, anyError_planField, isRejected_iff_fails, lenient] at faulty
  have malformed := faulty.resolve_right fun ⟨strict, _⟩ => by cases strict
  rw [← Bool.not_eq_true, repeats_iff]
  exact fun ⟨twin, held, given, alike⟩ => not_malformed_of_twin held given alike malformed

/-- A class with a field that is there twice. -/
def repeatedClass : Class :=
  ⟨[], false, "A", [.field ⟨1, 2⟩ ⟨[], false, "x", some (.named .origin ["Int"] []), none⟩,
    .field ⟨3, 4⟩ ⟨[], false, "x", some (.named .origin ["Int"] []), none⟩]⟩

/-- The second of the two fields is turned down, and passes without a word in the next round. -/
example :
    let program : Program := ⟨[.type .origin repeatedClass]⟩
    let elements : List TaggedElement := [⟨[0], .type, "A", .origin⟩]
    faultyFields .standard program elements = [⟨"A", "x", ⟨3, 4⟩⟩] ∧
      faultyFields .standard (round .standard program elements).program elements = [] := by
  decide +kernel

end DataClass.Accessor
