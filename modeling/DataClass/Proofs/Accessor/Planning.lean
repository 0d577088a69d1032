import DataClass.Accessor.Plan
import DataClass.Proofs.Program.Extension
namespace DataClass

/-! What is planned for a field and for the fields of a class.

`settle_cases` says all that can happen to the accessors of one field, and `planFields_settles` what
the names are like once all fields of a class have been gone through: the two names of a field
both belong to a method, or one of them belongs to a hand-written method that is another one.
-/

theorem accessorName_inj (kind : AccessorKind) {left right : String} :
    accessorName kind left = accessorName kind right ↔ titlecase left = titlecase right := by
  simp [accessorName, ← String.toList_inj]

theorem accessorName_lead {kind other : AccessorKind} {left right : String}
    (same : accessorName kind left = accessorName other right) : kind = other := by
  have letters := congrArg (fun name => name.toList.head?) same
  cases kind <;> cases other <;> simp [accessorName, AccessorKind.lead] at letters ⊢

namespace Class

def methodNames (decl : Class) : List String := decl.methods.map (·.name)

end Class

namespace Accessor

namespace Planned

def names (planned : Planned) : List String := planned.map (·.1)

theorem lookup_eq_none_iff {planned : Planned} {name : String} :
    planned.lookup name = none ↔ name ∉ planned.names := by
  simp only [List.lookup_eq_none_iff, names, List.mem_map, bne_iff_ne, not_exists, not_and]
  exact ⟨fun absent entry member same => absent entry member same.symm,
    fun absent entry member same => absent entry member same.symm⟩

theorem mem_names_of_lookup {planned : Planned} {name field : String}
    (found : planned.lookup name = some field) : name ∈ planned.names := by
  apply Decidable.byContradiction
  intro absent
  rw [lookup_eq_none_iff.mpr absent] at found
  cases found

end Planned

theorem synthesize_eq_ok {owner : String} {field : Field} {span : Span} {pair : Pair}
    (made : synthesize owner field span = .ok pair) :
    ∃ type, isIdentifier field.name = true ∧ field.type = some type ∧ type.isVoid = false ∧
      pair = ⟨getter field.name type span, setter field.name type span⟩ := by
  unfold synthesize at made
  split at made
  · next valid =>
      cases declared : field.type with
      | none => simp [declared] at made
      | some type =>
          cases void : type.isVoid with
          | true => simp [declared, void] at made
          | false =>
              simp only [declared, void, Bool.false_eq_true, if_false, Except.ok.injEq] at made
              exact ⟨type, valid, rfl, void, made.symm⟩
  · cases made

theorem name_of_mem_methods {owner : String} {field : Field} {span : Span} {pair : Pair}
    (made : synthesize owner field span = .ok pair) {method : Method}
    (member : method ∈ pair.methods) : ∃ kind, method.name = accessorName kind field.name := by
  obtain ⟨type, _, _, _, rfl⟩ := synthesize_eq_ok made
  simp only [Pair.methods, List.mem_cons, List.not_mem_nil, or_false] at member
  rcases member with rfl | rfl
  · exact ⟨.getter, rfl⟩
  · exact ⟨.setter, rfl⟩

theorem exists_accessor {owner : String} {field : Field} {span : Span} {pair : Pair}
    (made : synthesize owner field span = .ok pair) (kind : AccessorKind) :
    ∃ method ∈ pair.methods, method.name = accessorName kind field.name := by
  obtain ⟨type, _, _, _, rfl⟩ := synthesize_eq_ok made
  cases kind with
  | getter => exact ⟨_, List.mem_cons_self, rfl⟩
  | setter => exact ⟨_, List.mem_cons_of_mem _ List.mem_cons_self, rfl⟩

variable {policy : ConflictPolicy} {decl : Class} {planned : Planned}

theorem slotFor_eq_free_iff {method : Method} :
    slotFor decl planned method = .free ↔
      planned.lookup method.name = none ∧ method.name ∉ decl.methodNames := by
  unfold slotFor
  cases found : planned.lookup method.name with
  | some field => simp
  | none =>
      by_cases absent : (decl.methods.filter (·.name == method.name)).isEmpty
      · simp_all [Class.methodNames]
      · simp only [absent, Bool.false_eq_true, if_false]
        split <;> simp_all [Class.methodNames]

theorem slotFor_eq_identical_iff {method : Method} :
    slotFor decl planned method = .identical ↔
      planned.lookup method.name = none ∧
        ∃ present ∈ decl.methods, present.name = method.name ∧ present.alike method := by
  unfold slotFor
  cases found : planned.lookup method.name with
  | some field => simp
  | none =>
      by_cases absent : (decl.methods.filter (·.name == method.name)).isEmpty
      · simp_all
      · simp only [absent, Bool.false_eq_true, if_false]
        split <;> simp_all

theorem taken_of_slotFor {method : Method} {obstacle : Obstacle}
    (slot : slotFor decl planned method = .taken obstacle) :
    method.name ∈ planned.names ∨
      method.name ∈ decl.methodNames ∧
        ∀ present ∈ decl.methods, present.name = method.name → present.alike method = false := by
  have notFree : slotFor decl planned method ≠ .free := by simp [slot]
  have notIdentical : slotFor decl planned method ≠ .identical := by simp [slot]
  rw [Ne, slotFor_eq_free_iff] at notFree
  rw [Ne, slotFor_eq_identical_iff] at notIdentical
  cases found : planned.lookup method.name with
  | some field => exact .inl (Planned.mem_names_of_lookup found)
  | none =>
      refine .inr ⟨by simpa [found] using notFree, fun present member same => ?_⟩
      cases alike : present.alike method with
      | false => rfl
      | true => exact absurd ⟨found, present, member, same, alike⟩ notIdentical

/-- All that can happen to the accessors of a field: they are turned down together because of a
conflict, or those whose place is free are added. -/
theorem settle_cases (policy : ConflictPolicy) (decl : Class) (planned : Planned) (field : String)
    (span : Span) (methods : List Method) :
    let plan := settle policy decl planned field span methods
    (plan.isRejected = true ∧ plan.accepted = [] ∧ policy = .error ∧
      ∃ method ∈ methods, ∃ obstacle, slotFor decl planned method = .taken obstacle) ∨
    (plan.isRejected = false ∧
      plan.accepted = methods.filter (slotFor decl planned · = .free) ∧
      (policy = .error → ∀ method ∈ methods, ∀ obstacle,
        slotFor decl planned method ≠ .taken obstacle)) := by
  induction methods with
  | nil => exact .inr ⟨rfl, rfl, by simp⟩
  | cons method rest ih =>
      simp only [settle]
      cases slot : slotFor decl planned method with
      | free =>
          rcases ih with ⟨rejected, accepted, strict, other, member, taken⟩ | ⟨settled, accepted, clear⟩
          · exact .inl ⟨by simp [rejected], by simp [rejected, accepted], strict,
              other, List.mem_cons_of_mem _ member, taken⟩
          · refine .inr ⟨by simp [settled], by simp [settled, accepted, slot], fun strict => ?_⟩
            simpa [slot] using clear strict
      | identical =>
          rcases ih with ⟨rejected, accepted, strict, other, member, taken⟩ | ⟨settled, accepted, clear⟩
          · exact .inl ⟨rejected, accepted, strict, other, List.mem_cons_of_mem _ member, taken⟩
          · refine .inr ⟨settled, by simp [accepted, slot], fun strict => ?_⟩
            simpa [slot] using clear strict
      | taken obstacle =>
          cases policy with
          | error =>
              exact .inl ⟨rfl, rfl, rfl, method, List.mem_cons_self, obstacle, slot⟩
          | skip =>
              rcases ih with ⟨_, _, strict, _⟩ | ⟨settled, accepted, _⟩
              · cases strict
              · exact .inr ⟨settled, by simp [accepted, slot], by simp⟩

/-- What the planned names have in common while the fields of a class are gone through: no method
has such a name yet, and with one accessor of a field the other one is provided for too. -/
structure Planned.Closed (decl : Class) (planned : Planned) : Prop where
  fresh : ∀ name ∈ planned.names, name ∉ decl.methodNames
  paired : ∀ kind other field, accessorName kind field ∈ planned.names →
    accessorName other field ∈ planned.names ∨ accessorName other field ∈ decl.methodNames

/-- What has become of a field. Either both of its names belong to a method, old or planned, or one
of them belongs to methods that are different from its accessor, and conflicts are errors. -/
def Settled (policy : ConflictPolicy) (decl : Class) (names : List String) (entry : FieldMember) :
    Prop :=
  ∀ pair, synthesize decl.name entry.field entry.span = .ok pair →
    (∀ method ∈ pair.methods, method.name ∈ names ∨ method.name ∈ decl.methodNames) ∨
    (policy = .error ∧ ∃ method ∈ pair.methods, method.name ∈ decl.methodNames ∧
      ∀ present ∈ decl.methods, present.name = method.name → present.alike method = false)

theorem Settled.mono {names more : List String} {entry : FieldMember}
    (settled : Settled policy decl names entry) (kept : ∀ name ∈ names, name ∈ more) :
    Settled policy decl more entry := by
  intro pair made
  rcases settled pair made with covered | conflict
  · exact .inl fun method member => (covered method member).imp_left (kept _)
  · exact .inr conflict

theorem names_append (field : String) (plan : FieldPlan) (planned : Planned) :
    Planned.names (plan.names field ++ planned) =
      plan.accepted.map (·.name) ++ planned.names := by
  simp [Planned.names, FieldPlan.names]

/-- Every accessor has the name of a method, an old or a planned one, once those are planned whose place
is free. -/
theorem covered_of_free {methods : List Method} {method : Method} (member : method ∈ methods) :
    method.name ∈ (methods.filter (slotFor decl planned · = .free)).map (·.name) ++ planned.names ∨
      method.name ∈ decl.methodNames := by
  cases slot : slotFor decl planned method with
  | free =>
      exact .inl (List.mem_append_left _
        (List.mem_map_of_mem (List.mem_filter.mpr ⟨member, by simpa using slot⟩)))
  | identical =>
      obtain ⟨_, present, inside, same, _⟩ := slotFor_eq_identical_iff.mp slot
      exact .inr (same ▸ List.mem_map_of_mem inside)
  | taken obstacle =>
      rcases taken_of_slotFor slot with already | ⟨present, _⟩
      · exact .inl (List.mem_append_right _ already)
      · exact .inr present

/-- The planned names stay closed when the accessors of a field are added whose place is free. -/
theorem Planned.Closed.extend (closed : Planned.Closed decl planned) {owner : String} {field : Field}
    {span : Span} {pair : Pair} (made : synthesize owner field span = .ok pair) {later : Planned}
    (names : later.names =
      (pair.methods.filter (slotFor decl planned · = .free)).map (·.name) ++ planned.names) :
    Planned.Closed decl later := by
  refine ⟨fun name member => ?_, fun kind other named member => ?_⟩
  · rw [names] at member
    rcases List.mem_append.mp member with new | old
    · obtain ⟨method, inside, rfl⟩ := List.mem_map.mp new
      have free := (List.mem_filter.mp inside).2
      exact (slotFor_eq_free_iff.mp (of_decide_eq_true free)).2
    · exact closed.fresh name old
  · rw [names] at member ⊢
    rcases List.mem_append.mp member with new | old
    · obtain ⟨method, inside, same⟩ := List.mem_map.mp new
      obtain ⟨own, ownNamed⟩ := name_of_mem_methods made (List.mem_filter.mp inside).1
      have sameName := ownNamed.symm.trans same
      obtain rfl := accessorName_lead sameName
      obtain ⟨accessor, held, accessorNamed⟩ := exists_accessor made other
      have sameField := (accessorName_inj other).mpr ((accessorName_inj own).mp sameName)
      rw [← sameField, ← accessorNamed]
      exact covered_of_free held
    · exact (closed.paired kind other named old).imp_left (List.mem_append_right _)

/-- If the name of one accessor is planned already, those of all accessors of the field belong to a
method. -/
theorem Planned.Closed.covered (closed : Planned.Closed decl planned) {owner : String} {field : Field}
    {span : Span} {pair : Pair} (made : synthesize owner field span = .ok pair) {method : Method}
    (member : method ∈ pair.methods) (already : method.name ∈ planned.names) :
    ∀ accessor ∈ pair.methods,
      accessor.name ∈ planned.names ∨ accessor.name ∈ decl.methodNames := by
  intro accessor inside
  obtain ⟨kind, named⟩ := name_of_mem_methods made member
  obtain ⟨other, otherNamed⟩ := name_of_mem_methods made inside
  rw [otherNamed]
  exact closed.paired kind other _ (named ▸ already)

theorem planField_settles (policy : ConflictPolicy) (closed : Planned.Closed decl planned)
    (entry : FieldMember) :
    let plan := planField policy decl planned entry
    let later := plan.names entry.field.name ++ planned
    Planned.Closed decl later ∧ Settled policy decl later.names entry := by
  have unchanged {plan : FieldPlan} (nothing : plan.accepted = []) :
      plan.names entry.field.name ++ planned = planned := by
    simp [FieldPlan.names, nothing]
  simp only [planField]
  cases made : synthesize decl.name entry.field entry.span with
  | error fault =>
      dsimp only
      rw [unchanged rfl]
      exact ⟨closed, fun pair other => by simp [made] at other⟩
  | ok pair =>
      rcases settle_cases policy decl planned entry.field.name entry.span pair.methods with
        ⟨_, nothing, strict, method, member, obstacle, slot⟩ | ⟨_, accepted, _⟩
      · dsimp only
        rw [unchanged nothing]
        refine ⟨closed, fun other same => ?_⟩
        obtain rfl : pair = other := by simpa [made] using same
        rcases taken_of_slotFor slot with already | different
        · exact .inl (closed.covered made member already)
        · exact .inr ⟨strict, method, member, different⟩
      · dsimp only
        have names := names_append entry.field.name
          (settle policy decl planned entry.field.name entry.span pair.methods) planned
        rw [accepted] at names
        refine ⟨closed.extend made names, fun other same => ?_⟩
        obtain rfl : pair = other := by simpa [made] using same
        rw [names]
        exact .inl fun method member => covered_of_free member

namespace ClassPlan

def methods (plan : ClassPlan) : List Method := plan.members.filterMap Member.method?

end ClassPlan

theorem planFields_methods (policy : ConflictPolicy) (decl : Class) (planned : Planned)
    (entry : FieldMember) (rest : List FieldMember) :
    let plan := planField policy decl planned entry
    (planFields policy decl planned (entry :: rest)).methods =
      plan.accepted ++
        (planFields policy decl (plan.names entry.field.name ++ planned) rest).methods := by
  have all (span : Span) (methods : List Method) :
      (methods.map (Member.method span)).filterMap Member.method? = methods := by
    induction methods with
    | nil => rfl
    | cons method rest ih => simp [Member.method?, ih]
  simp only [ClassPlan.methods, planFields, List.filterMap_append, FieldPlan.members, all]

/-- Going through fields adds no method whose name is there already, and settles every field. -/
theorem planFields_settles (policy : ConflictPolicy) (closed : Planned.Closed decl planned)
    (entries : List FieldMember) :
    let added := (planFields policy decl planned entries).methods.map (·.name)
    (∀ name ∈ added, name ∉ decl.methodNames) ∧
      ∀ entry ∈ entries, Settled policy decl (added ++ planned.names) entry := by
  induction entries generalizing planned with
  | nil => exact ⟨by simp [planFields, ClassPlan.methods], by simp⟩
  | cons entry rest ih =>
      obtain ⟨laterClosed, settled⟩ := planField_settles policy closed entry
      obtain ⟨fresh, others⟩ := ih laterClosed
      have here : ∀ name ∈ (planField policy decl planned entry).accepted.map (·.name),
          name ∉ decl.methodNames := fun name member =>
        laterClosed.fresh name (by rw [names_append]; exact List.mem_append_left _ member)
      dsimp only
      rw [planFields_methods, List.map_append]
      refine ⟨fun name member => ?_, fun other member => ?_⟩
      · exact (List.mem_append.mp member).elim (here name) (fresh name)
      · rcases List.mem_cons.mp member with rfl | later
        · refine settled.mono fun name inside => ?_
          rw [names_append] at inside
          simp only [List.mem_append] at inside ⊢
          exact inside.imp_left .inl
        · refine (others other later).mono fun name inside => ?_
          rw [names_append] at inside
          simp only [List.mem_append] at inside ⊢
          rcases inside with further | accepted | old
          · exact .inl (.inr further)
          · exact .inl (.inl accepted)
          · exact .inr old

theorem planClass_settles (policy : ConflictPolicy) (decl : Class) :
    let added := (planClass policy decl).methods.map (·.name)
    (∀ name ∈ added, name ∉ decl.methodNames) ∧
      ∀ entry ∈ decl.fields, Settled policy decl added entry := by
  have closed : Planned.Closed decl [] := ⟨by simp [Planned.names], by simp [Planned.names]⟩
  simpa [Planned.names, planClass] using planFields_settles policy closed decl.fields

theorem planFields_members_of_none {entries : List FieldMember}
    (nothing : ∀ entry ∈ entries, (planField policy decl planned entry).accepted = []) :
    (planFields policy decl planned entries).members = [] := by
  induction entries with
  | nil => rfl
  | cons entry rest ih =>
      have here := nothing entry List.mem_cons_self
      have later := ih fun other member => nothing other (List.mem_cons_of_mem _ member)
      simp [planFields, FieldPlan.members, FieldPlan.names, here, later]

/-- A class that has got what was planned for it gets nothing more. -/
theorem planClass_again {decl again : Class} (name : again.name = decl.name)
    (fields : again.fields = decl.fields)
    (methods : again.methods = decl.methods ++ (planClass policy decl).methods) :
    (planClass policy again).members = [] := by
  obtain ⟨fresh, settled⟩ := planClass_settles policy decl
  have names : again.methodNames =
      decl.methodNames ++ (planClass policy decl).methods.map (·.name) := by
    simp [Class.methodNames, methods]
  refine planFields_members_of_none fun entry member => ?_
  rw [fields] at member
  simp only [planField]
  cases made : synthesize again.name entry.field entry.span with
  | error fault => rfl
  | ok pair =>
      dsimp only
      rcases settle_cases policy again [] entry.field.name entry.span pair.methods with
        ⟨_, nothing, _⟩ | ⟨_, accepted, clear⟩
      · exact nothing
      rw [accepted, List.filter_eq_nil_iff]
      intro method inside
      rw [decide_eq_true_eq, slotFor_eq_free_iff, names, List.mem_append]
      rw [name] at made
      rcases settled entry member pair made with covered | ⟨strict, other, held, present, different⟩
      · exact fun free => free.2 (covered method inside).symm
      · -- The conflict is still there: none of the new methods has the name that is taken.
        exfalso
        cases slot : slotFor again [] other with
        | free =>
            rw [slotFor_eq_free_iff, names] at slot
            exact slot.2 (List.mem_append_left _ present)
        | identical =>
            obtain ⟨_, same, held', named, alike⟩ := slotFor_eq_identical_iff.mp slot
            rw [methods] at held'
            rcases List.mem_append.mp held' with old | new
            · simp [different same old named] at alike
            · exact fresh other.name (named ▸ List.mem_map_of_mem new) present
        | taken obstacle => exact clear strict other held obstacle slot

end Accessor

end DataClass
