import DataClass.Proofs.Accessor.Convergence
import DataClass.Proofs.Accessor.Marked
import DataClass.Proofs.Accessor.Rereading
namespace DataClass.Accessor

/-! Rounds that report no error. Their classes have, for every field, what its accessors are made of,
and where a conflict is an error they end up with all accessors. This is still so after the program
has been written and read back. -/

variable {policy : ConflictPolicy} {decl old : Class} {planned : Planned}

def anyError (diagnostics : List Diagnostic) : Bool := diagnostics.any (·.isError)

theorem anyError_append (left right : List Diagnostic) :
    anyError (left ++ right) = (anyError left || anyError right) :=
  List.any_append

theorem anyError_settle {field : String} {span : Span} {methods : List Method} :
    anyError (settle policy decl planned field span methods).diagnostics =
      (settle policy decl planned field span methods).isRejected := by
  induction methods with
  | nil => rfl
  | cons method rest ih =>
      simp only [settle]
      cases slotFor decl planned method with
      | free =>
          dsimp only
          split <;> exact ih
      | identical => exact ih
      | taken obstacle =>
          cases policy with
          | error => rfl
          | skip => exact ih

theorem anyError_planField {entry : FieldMember} :
    anyError (planField policy decl planned entry).diagnostics =
      (planField policy decl planned entry).isRejected := by
  unfold planField
  cases synthesize decl.name entry.field entry.span with
  | error fault => rfl
  | ok pair => exact anyError_settle

theorem anyError_planFields_cons {entry : FieldMember} {rest : List FieldMember} :
    anyError (planFields policy decl planned (entry :: rest)).diagnostics = false ↔
      (planField policy decl planned entry).isRejected = false ∧
        anyError (planFields policy decl
          ((planField policy decl planned entry).names entry.field.name ++ planned)
          rest).diagnostics = false := by
  simp only [planFields, anyError_append, anyError_planField, Bool.or_eq_false_iff]

/-- A class that gives no reason for an error: all its fields can have accessors, and where a conflict
is an error it has all of them. -/
def Provided (policy : ConflictPolicy) (decl : Class) : Prop :=
  ∀ outline ∈ decl.outlines, ∃ type, outline.2 = some type ∧ decl.Accessible outline.1 type ∧
    (policy = .error →
      decl.Has (getter outline.1 type .origin) ∧ decl.Has (setter outline.1 type .origin))

theorem plain_of_mem_pair {owner : String} {field : Field} {span : Span} {pair : Pair}
    (made : synthesize owner field span = .ok pair) {method : Method}
    (inside : method ∈ pair.methods) : Plain (Stmt.bodyKinds method.body) := by
  obtain ⟨type, _, _, _, rfl⟩ := synthesize_eq_ok made
  simp only [Pair.methods, List.mem_cons, List.not_mem_nil, or_false] at inside
  rcases inside with rfl | rfl
  · exact plain_getter field.name type span
  · exact plain_setter field.name type span

theorem has_of_identical (writable : decl.Writable) {method : Method}
    (plain : Plain (Stmt.bodyKinds method.body))
    (slot : slotFor decl planned method = .identical) : decl.Has method := by
  obtain ⟨_, present, inside, _, alike⟩ := slotFor_eq_identical_iff.mp slot
  exact ⟨present, inside,
    (Method.alike_iff_erase (Class.plain_of_mem_methods writable inside) plain).mp alike⟩

theorem accepted_of_not_rejected (writable : decl.Writable) {entry : FieldMember}
    (quiet : (planField policy decl planned entry).isRejected = false) :
    ∃ pair, synthesize decl.name entry.field entry.span = .ok pair ∧
      (policy = .error → ∀ method ∈ pair.methods,
        decl.Has method ∨ method ∈ (planField policy decl planned entry).accepted) := by
  unfold planField at quiet ⊢
  cases made : synthesize decl.name entry.field entry.span with
  | error fault => simp [made, FieldPlan.rejected] at quiet
  | ok pair =>
      rw [made] at quiet
      refine ⟨pair, rfl, fun strict method inside => ?_⟩
      rcases settle_cases policy decl planned entry.field.name entry.span pair.methods with
        ⟨rejected, _⟩ | ⟨_, accepted, clear⟩
      · exact absurd (quiet.symm.trans rejected) (by decide)
      · cases slot : slotFor decl planned method with
        | free =>
            right
            rw [accepted]
            exact List.mem_filter.mpr ⟨inside, decide_eq_true slot⟩
        | identical => exact .inl (has_of_identical writable (plain_of_mem_pair made inside) slot)
        | taken obstacle => exact absurd slot (clear strict method inside obstacle)

theorem planned_of_quiet (writable : decl.Writable) {entries : List FieldMember}
    (quiet : anyError (planFields policy decl planned entries).diagnostics = false) :
    ∀ entry ∈ entries, ∃ pair, synthesize decl.name entry.field entry.span = .ok pair ∧
      (policy = .error → ∀ method ∈ pair.methods,
        decl.Has method ∨ method ∈ (planFields policy decl planned entries).methods) := by
  induction entries generalizing planned with
  | nil => nofun
  | cons entry rest ih =>
      obtain ⟨here, later⟩ := anyError_planFields_cons.mp quiet
      intro other inside
      rw [planFields_methods]
      rcases List.mem_cons.mp inside with rfl | behind
      · obtain ⟨pair, made, all⟩ := accepted_of_not_rejected writable here
        refine ⟨pair, made, fun strict method held => ?_⟩
        exact (all strict method held).imp_right (List.mem_append_left _)
      · obtain ⟨pair, made, all⟩ := ih later other behind
        refine ⟨pair, made, fun strict method held => ?_⟩
        exact (all strict method held).imp_right (List.mem_append_right _)

/-- A class without an error is provided for once it has got what was planned for it. -/
theorem provided_of_quiet (writable : old.Writable)
    (quiet : anyError (planClass policy old).diagnostics = false)
    (fields : decl.fields = old.fields)
    (methods : decl.methods = old.methods ++ (planClass policy old).methods) :
    Provided policy decl := by
  have outlines : decl.outlines = old.outlines := congrArg (List.map FieldMember.outline) fields
  have keeps {method : Method} (there : old.Has method ∨ method ∈ (planClass policy old).methods) :
      decl.Has method := by
    unfold Class.Has
    rw [methods]
    rcases there with ⟨present, inside, same⟩ | added
    · exact ⟨present, List.mem_append_left _ inside, same⟩
    · exact ⟨method, List.mem_append_right _ added, rfl⟩
  intro outline listed
  rw [outlines] at listed
  obtain ⟨entry, inside, rfl⟩ := List.mem_map.mp listed
  obtain ⟨pair, made, all⟩ := planned_of_quiet writable quiet entry inside
  obtain ⟨type, valid, typed, value, rfl⟩ := synthesize_eq_ok made
  have outline : entry.outline = (entry.field.name, some type.erase) := by
    rw [FieldMember.outline, typed, Option.map_some]
  rw [outline] at listed ⊢
  refine ⟨type.erase, rfl, ⟨outlines ▸ listed, valid, by rwa [TypeRef.isVoid_erase]⟩, fun strict => ?_⟩
  have both := fun method held => keeps (all strict method held)
  constructor
  · exact (has_congr (erase_getter _ type entry.span)).mp (both _ List.mem_cons_self)
  · exact (has_congr (erase_setter _ type entry.span)).mp
      (both _ (List.mem_cons_of_mem _ List.mem_cons_self))

theorem rereads_of_has {method : Method} (kept : method.spelled.erase = method.erase)
    (has : old.Has method) : old.Rereads method := by
  obtain ⟨present, inside, same⟩ := has
  exact ⟨present, inside, spelled_of_erase kept same⟩

theorem Provided.of_erase (provided : Provided policy old) (same : decl.erase = old.spelled.erase) :
    Provided policy decl := by
  intro outline listed
  rw [outlines_of_erase same] at listed
  obtain ⟨type, typed, accessible, all⟩ := provided outline listed
  refine ⟨type, typed, (accessible_of_erase same).mpr accessible, fun strict => ?_⟩
  rw [has_iff_rereads same, has_iff_rereads same]
  exact (all strict).imp (rereads_of_has spelled_getter) (rereads_of_has spelled_setter)

theorem Provided.settled (provided : Provided policy decl) (writable : decl.Writable)
    (none : policy = .error → planned = []) {entry : FieldMember} (inside : entry ∈ decl.fields) :
    (planField policy decl planned entry).isRejected = false ∧
      (policy = .error → (planField policy decl planned entry).accepted = []) := by
  obtain ⟨type, typed, accessible, all⟩ := provided entry.outline (List.mem_map_of_mem inside)
  have outline : entry.outline = (entry.field.name, some type) := Prod.ext rfl typed
  obtain ⟨declared, rfl, _, made⟩ := synthesize_of_outline outline accessible
  have identical (strict : policy = .error) (method : Method)
      (listed : method ∈ [getter entry.field.name declared entry.span,
        setter entry.field.name declared entry.span]) :
      slotFor decl planned method = .identical := by
    obtain ⟨get, set⟩ := all strict
    rw [none strict, slotFor_nil_eq_identical_iff writable (plain_of_mem_pair made listed)]
    simp only [List.mem_cons, List.not_mem_nil, or_false] at listed
    rcases listed with rfl | rfl
    · exact (has_congr (erase_getter _ declared entry.span)).mpr get
    · exact (has_congr (erase_setter _ declared entry.span)).mpr set
  have plan : planField policy decl planned entry =
      settle policy decl planned entry.field.name entry.span
        [getter entry.field.name declared entry.span,
          setter entry.field.name declared entry.span] := by
    simp only [planField, made, Pair.methods]
  rw [plan]
  constructor
  · rw [Bool.eq_false_iff, Ne, isRejected_iff]
    rintro ⟨strict, method, listed, obstacle, slot⟩
    rw [identical strict method listed] at slot
    cases slot
  · intro strict
    apply accepted_eq_nil_iff.mpr
    right
    intro method listed
    simp [identical strict method listed]

/-- A class that is provided for is reported on without an error. -/
theorem Provided.quiet (provided : Provided policy decl) (writable : decl.Writable) :
    anyError (planClass policy decl).diagnostics = false := by
  -- Where conflicts are errors nothing is ever planned, so no name gets taken on the way.
  have each (entries : List FieldMember) (inside : ∀ entry ∈ entries, entry ∈ decl.fields)
      (planned : Planned) (none : policy = .error → planned = []) :
      anyError (planFields policy decl planned entries).diagnostics = false := by
    induction entries generalizing planned with
    | nil => rfl
    | cons entry rest ih =>
        obtain ⟨settled, nothing⟩ := provided.settled writable none (inside entry List.mem_cons_self)
        rw [anyError_planFields_cons]
        refine ⟨settled, ih (fun other later => inside other (List.mem_cons_of_mem _ later)) _ ?_⟩
        intro strict
        rw [FieldPlan.names, nothing strict, none strict]
        rfl
  exact each decl.fields (fun _ held => held) [] fun _ => rfl

end DataClass.Accessor
