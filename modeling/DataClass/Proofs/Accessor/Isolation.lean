import DataClass.Proofs.Accessor.Coverage
import DataClass.Proofs.Accessor.Frame
import Mathlib.Data.List.Nodup
namespace DataClass

/-! What fails stays on its own. A field that is turned down takes no name, so the other fields of its
class are planned as if it were not there. And the edit that is planned for a class is decided by its
name, its fields and its methods, whatever else is in the program and whatever else is marked. -/

/-- Members from an index on, without the fields at some indices. -/
def Member.dropFields (indices : List Nat) (index : Nat) : List Member → List Member
  | [] => []
  | .field span decl :: rest =>
      if index ∈ indices then dropFields indices (index + 1) rest
      else .field span decl :: dropFields indices (index + 1) rest
  | member :: rest => member :: dropFields indices (index + 1) rest

namespace FieldMember

/-- The field and its range, but not its index. -/
def content (entry : FieldMember) : Field × Span := (entry.field, entry.span)

end FieldMember

namespace Class

/-- The class without the fields at some indices. -/
def dropFields (indices : List Nat) (decl : Class) : Class :=
  { decl with members := Member.dropFields indices 0 decl.members }

theorem methods_dropFields (indices : List Nat) (decl : Class) :
    (decl.dropFields indices).methods = decl.methods := by
  have inside (index : Nat) (members : List Member) :
      (Member.dropFields indices index members).filterMap Member.method? =
        members.filterMap Member.method? := by
    induction members generalizing index with
    | nil => rfl
    | cons member rest ih =>
        cases member with
        | field span decl =>
            rw [Member.dropFields]
            split <;> simp [List.filterMap_cons, Member.method?, ih]
        | _ => simp [Member.dropFields, List.filterMap_cons, ih]
  exact inside 0 decl.members

theorem content_dropFields (indices : List Nat) (decl : Class) :
    (decl.dropFields indices).fields.map FieldMember.content =
      (decl.fields.filter (·.index ∉ indices)).map FieldMember.content := by
  have inside (start index : Nat) (members : List Member) :
      (fieldsFrom start (Member.dropFields indices index members)).map FieldMember.content =
        ((fieldsFrom index members).filter (·.index ∉ indices)).map FieldMember.content := by
    induction members generalizing start index with
    | nil => rfl
    | cons member rest ih =>
        cases member with
        | field span decl =>
            rw [Member.dropFields]
            by_cases gone : index ∈ indices <;> simp [fieldsFrom, gone, ih, FieldMember.content]
        | _ => exact ih (start + 1) (index + 1)
  exact inside 0 0 decl.members

/-- Every field has an index of its own. -/
theorem fields_index_nodup (decl : Class) : (decl.fields.map (·.index)).Nodup :=
  List.pairwise_map.mpr (decl.fields_rising.imp Nat.ne_of_lt)

/-- The classes have the same name, the same methods, and the same fields at the same places. -/
structure SameAccess (left right : Class) : Prop where
  name : left.name = right.name
  fields : left.fields.map FieldMember.content = right.fields.map FieldMember.content
  methods : left.methods = right.methods

end Class

namespace Accessor

variable {policy : ConflictPolicy} {decl left right : Class} {planned : Planned}

/-! ### What a plan hangs on -/

theorem slotFor_congr (same : left.methods = right.methods) (planned : Planned) (method : Method) :
    slotFor left planned method = slotFor right planned method := by
  simp only [slotFor, same]

theorem settle_congr (name : left.name = right.name) (methods : left.methods = right.methods)
    (planned : Planned) (field : String) (span : Span) (accessors : List Method) :
    settle policy left planned field span accessors =
      settle policy right planned field span accessors := by
  induction accessors with
  | nil => rfl
  | cons method rest ih => simp only [settle, slotFor_congr methods, name, ih]

theorem planFields_congr (name : left.name = right.name) (methods : left.methods = right.methods)
    {entries others : List FieldMember}
    (fields : entries.map FieldMember.content = others.map FieldMember.content)
    (planned : Planned) :
    planFields policy left planned entries = planFields policy right planned others := by
  induction entries generalizing planned others with
  | nil => rw [List.map_eq_nil_iff.mp fields.symm]; rfl
  | cons entry rest ih =>
      obtain ⟨other, later, rfl, here, there⟩ := List.map_eq_cons_iff.mp fields.symm
      obtain ⟨sameField, sameSpan⟩ := Prod.mk.inj here
      have first : planField policy left planned entry = planField policy right planned other := by
        simp only [planField, sameField, sameSpan, name, settle_congr name methods]
      simp only [planFields, first, sameField, sameSpan, ih there.symm]

/-- What is planned for a class hangs on its name, its fields and its methods only. -/
theorem planClass_congr (policy : ConflictPolicy) (same : left.SameAccess right) :
    planClass policy left = planClass policy right :=
  planFields_congr same.name same.methods same.fields []

/-! ### Fields that are turned down -/

/-- No accessors can be made for the field, or conflicts are errors and one of the accessors meets one. -/
def Fails (policy : ConflictPolicy) (decl : Class) (planned : Planned) (entry : FieldMember) : Prop :=
  entry.field.Malformed ∨
    policy = .error ∧ ¬ Clear decl planned (offered decl.name entry)

theorem isRejected_iff_fails (policy : ConflictPolicy) (decl : Class) (planned : Planned)
    (entry : FieldMember) :
    (planField policy decl planned entry).isRejected = true ↔ Fails policy decl planned entry := by
  unfold planField Fails offered
  cases made : synthesize decl.name entry.field entry.span with
  | error fault => exact iff_of_true rfl (.inl (synthesize_malformed made))
  | ok pair =>
      obtain ⟨type, valid, declared, value, _⟩ := synthesize_eq_ok made
      have sound : ¬ entry.field.Malformed := by simp [Field.Malformed, declared, valid, value]
      simp only [sound, false_or]
      rcases settle_cases policy decl planned entry.field.name entry.span pair.methods with
        ⟨rejected, _, strict, method, member, obstacle, slot⟩ | ⟨settled, _, clear⟩
      · exact iff_of_true rejected ⟨strict, fun free => free method member obstacle slot⟩
      · exact iff_of_false (by simp [settled]) fun ⟨strict, conflict⟩ => conflict (clear strict)

/-- The fields of a class that are turned down. -/
def rejectedFields (policy : ConflictPolicy) (decl : Class) : List FieldMember :=
  ((fieldPlans policy decl [] decl.fields).filter (·.plan.isRejected)).map (·.entry)

theorem accepted_of_isRejected {entry : FieldMember}
    (rejected : (planField policy decl planned entry).isRejected = true) :
    (planField policy decl planned entry).accepted = [] := by
  unfold planField at rejected ⊢
  cases made : synthesize decl.name entry.field entry.span with
  | error fault => rfl
  | ok pair =>
      rw [made] at rejected
      rcases settle_cases policy decl planned entry.field.name entry.span pair.methods with
        ⟨_, nothing, _⟩ | ⟨settled, _⟩
      · exact nothing
      · exact absurd rejected (by simp [settled])

/-- A field that is turned down leaves the planned names as they are, so the fields behind it are
planned as without it. -/
theorem planFields_accepted (policy : ConflictPolicy) (decl : Class) (planned : Planned)
    (entries : List FieldMember) :
    (planFields policy decl planned
        (((fieldPlans policy decl planned entries).filter (!·.plan.isRejected)).map (·.entry))).members =
      (planFields policy decl planned entries).members := by
  induction entries generalizing planned with
  | nil => rfl
  | cons entry rest ih =>
      rw [fieldPlans, List.filter_cons]
      cases rejected : (planField policy decl planned entry).isRejected with
      | true =>
          have nothing := accepted_of_isRejected rejected
          simpa [planFields, FieldPlan.names, FieldPlan.members, nothing] using ih planned
      | false => simp only [planFields, List.map_cons, Bool.not_false, if_true, ih]

theorem kept_fields (policy : ConflictPolicy) (decl : Class) :
    decl.fields.filter (·.index ∉ (rejectedFields policy decl).map (·.index)) =
      ((fieldPlans policy decl [] decl.fields).filter (!·.plan.isRejected)).map (·.entry) := by
  have entries : (fieldPlans policy decl [] decl.fields).map (·.entry) = decl.fields :=
    map_entry_fieldPlans
  have distinct : ((fieldPlans policy decl [] decl.fields).map (·.entry.index)).Nodup := by
    have indices := decl.fields_index_nodup
    rwa [← entries, List.map_map] at indices
  rw [rejectedFields]
  generalize fieldPlans policy decl [] decl.fields = plans at entries distinct ⊢
  rw [← entries, List.filter_map]
  congr 1
  refine List.filter_congr fun field inside => ?_
  rw [List.map_map, Bool.eq_iff_iff]
  simp only [Function.comp_apply, decide_eq_true_eq, List.mem_map, List.mem_filter, Bool.not_eq_true']
  constructor
  · intro absent
    exact Bool.not_eq_true _ ▸ fun rejected => absent ⟨field, ⟨inside, rejected⟩, rfl⟩
  · rintro kept ⟨other, ⟨listed, rejected⟩, same⟩
    obtain rfl := List.inj_on_of_nodup_map distinct listed inside same
    rw [kept] at rejected
    cases rejected

theorem members_planClass_dropFields (policy : ConflictPolicy) (decl : Class) :
    (planClass policy (decl.dropFields ((rejectedFields policy decl).map (·.index)))).members =
      (planClass policy decl).members := by
  have fields := decl.content_dropFields ((rejectedFields policy decl).map (·.index))
  rw [kept_fields] at fields
  generalize (rejectedFields policy decl).map (·.index) = indices at fields ⊢
  have name : (decl.dropFields indices).name = decl.name := rfl
  calc (planClass policy (decl.dropFields indices)).members
    _ = (planFields policy decl [] (((fieldPlans policy decl [] decl.fields).filter
          (!·.plan.isRejected)).map (·.entry))).members :=
      congrArg ClassPlan.members
        (planFields_congr name (decl.methods_dropFields indices) fields [])
    _ = (planClass policy decl).members := planFields_accepted policy decl [] decl.fields

/-- Failures are isolated. The accessors planned for a class are those planned for the class without the
fields that fail. And in any two programs, with any marked elements, classes at the same
address that are both marked get the same edit if they have the same name, the same fields at the same
places and the same methods, whatever else the programs and the classes hold and whatever else is
marked. -/
theorem planRound_isolated (settings : Settings) :
    (∀ decl,
      (∀ field ∈ fieldPlans settings.policy decl [] decl.fields, ∃ planned,
        field.plan = planField settings.policy decl planned field.entry ∧
          (field.plan.isRejected = true ↔ Fails settings.policy decl planned field.entry)) ∧
      (planClass settings.policy (decl.dropFields
          ((rejectedFields settings.policy decl).map (·.index)))).members =
        (planClass settings.policy decl).members) ∧
    ∀ one two elements others path left right,
      (∃ element ∈ elements, element.kind = .type ∧ element.path = path) →
      (∃ element ∈ others, element.kind = .type ∧ element.path = path) →
      one.classAt? path = some left → two.classAt? path = some right → left.SameAccess right →
      ∃ edit : Edit, edit.path = path ∧
        (planRound settings one elements).edits.filter (·.path == path) = [edit] ∧
        (planRound settings two others).edits.filter (·.path == path) = [edit] := by
  refine ⟨fun decl => ⟨fun field inside => ?_, members_planClass_dropFields settings.policy decl⟩, ?_⟩
  · obtain ⟨planned, plan⟩ := exists_planField inside
    exact ⟨planned, plan, plan ▸ isRejected_iff_fails settings.policy decl planned field.entry⟩
  intro one two elements others path left right marked markedToo first second same
  refine ⟨⟨path, (planClass settings.policy left).members⟩, rfl, ?_, ?_⟩
  · obtain ⟨entry, inside, rfl, rfl⟩ := exists_taggedClass.mpr ⟨marked, first⟩
    exact edits_of_mem inside
  · obtain ⟨entry, inside, rfl, rfl⟩ := exists_taggedClass.mpr ⟨markedToo, second⟩
    rw [planClass_congr settings.policy same]
    exact edits_of_mem inside

/-- A class with a field that is turned down between its other members. -/
def isolatedClass (others : List Member) (tags : List Tag) : Class :=
  ⟨tags, false, "Point", others ++ [
    .field ⟨1, 2⟩ ⟨[], false, "x", some (.named ⟨3, 4⟩ ["Int"] []), none⟩,
    .field ⟨5, 6⟩ ⟨[], false, "X", some (.named ⟨7, 8⟩ ["Int"] []), none⟩,
    .field ⟨9, 10⟩ ⟨[], false, "y", some (.named ⟨11, 12⟩ ["Int"] []), none⟩]⟩

theorem planRound_isolated_point :
    let left := isolatedClass [] []
    let right := isolatedClass [.initializer .origin []] [⟨.origin, ["Data"]⟩]
    let one : Program := ⟨[.importPath .origin ["lib"], .type .origin left]⟩
    let two : Program := ⟨[.type .origin right, .type .origin right]⟩
    let marked : TaggedElement := ⟨[1], .type, "Point", .origin⟩
    let others : List TaggedElement := [⟨[0], .type, "Other", .origin⟩, marked]
    left.SameAccess right ∧ (rejectedFields .error left).map (·.index) = [1] ∧
      (planClass .error (left.dropFields [1])).members = (planClass .error left).members ∧
      ∃ edit : Edit, edit.members.length = 4 ∧
        (planRound .standard one [marked]).edits.filter (·.path == [1]) = [edit] ∧
        (planRound .standard two others).edits.filter (·.path == [1]) = [edit] := by
  intro left right one two marked others
  have same : left.SameAccess right := ⟨rfl, rfl, rfl⟩
  have rejected : (rejectedFields .error left).map (·.index) = [1] := by decide +kernel
  obtain ⟨kept, isolated⟩ := planRound_isolated .standard
  refine ⟨same, rejected, rejected ▸ (kept left).2, ?_⟩
  obtain ⟨edit, _, first, second⟩ := isolated one two [marked] others [1] left right
    ⟨marked, List.mem_cons_self, rfl, rfl⟩
    ⟨marked, List.mem_cons_of_mem _ List.mem_cons_self, rfl, rfl⟩ rfl rfl same
  refine ⟨edit, ?_, first, second⟩
  have count : ((planRound .standard one [marked]).edits.filter (·.path == [1])).map
      (·.members.length) = [4] := by decide +kernel
  rw [first] at count
  exact (List.cons.inj count).1

end Accessor

end DataClass
