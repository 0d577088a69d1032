import DataClass.Accessor.Round
import DataClass.Proofs.Accessor.Entries
import DataClass.Proofs.Accessor.Planning
namespace DataClass.Accessor

/-! What a round does to a program: it extends it by the accessors that were planned, and a second
round over the same elements has nothing left to do. -/

variable {settings : Settings} {program : Program} {elements : List TaggedElement}

/-- What edits add, address by address, in their order. -/
def membersAt (edits : List Edit) : Additions :=
  fun path => (edits.filter (·.path == path)).flatMap (·.members)

theorem membersAt_cons (edit : Edit) (rest : List Edit) :
    membersAt (edit :: rest) =
      (Additions.single edit.path edit.members).followedBy (membersAt rest) := by
  funext path
  by_cases here : path = edit.path
  · simp [membersAt, Additions.followedBy, Additions.single, here]
  · have there : ¬ edit.path = path := fun same => here same.symm
    simp [membersAt, Additions.followedBy, Additions.single, here, there]

theorem membersAt_eq_nil {edits : List Edit} {path : Path}
    (absent : ∀ edit ∈ edits, edit.path ≠ path) : membersAt edits path = [] := by
  have none : edits.filter (·.path == path) = [] := by
    simpa [List.filter_eq_nil_iff] using absent
  simp [membersAt, none]

theorem applyEdit_eq_extend {edit : Edit} (resolved : (program.classAt? edit.path).isSome) :
    applyEdit program edit =
      (program.extend (.single edit.path edit.members), edit.members.length) := by
  obtain ⟨found, reached⟩ := Option.isSome_iff_exists.mp resolved
  have place : edit.path ≠ [] := by
    intro root
    rw [root] at reached
    cases reached
  unfold applyEdit
  cases added : edit.members with
  | nil =>
      have nothing : Additions.single edit.path [] = .none := by
        funext path
        simp [Additions.single, Additions.none]
      simp [nothing]
  | cons first rest => simp [reached, Program.updateAt_append (first :: rest) program place]

/-- Edits of classes that are there add up to one extension, whatever their order. -/
theorem applyEdits_eq_extend (program : Program) (edits : List Edit)
    (resolved : ∀ edit ∈ edits, (program.classAt? edit.path).isSome) :
    applyEdits program edits =
      (program.extend (membersAt edits), (edits.flatMap (·.members)).length) := by
  induction edits generalizing program with
  | nil =>
      have nothing : membersAt [] = .none := rfl
      simp [applyEdits, nothing]
  | cons edit rest ih =>
      have later : ∀ other ∈ rest,
          ((program.extend (.single edit.path edit.members)).classAt? other.path).isSome := by
        intro other member
        obtain ⟨found, reached⟩ :=
          Option.isSome_iff_exists.mp (resolved other (List.mem_cons_of_mem edit member))
        rw [Program.classAt?_extend_of_some _ reached]
        rfl
      have covers : program.Covers (membersAt rest) := by
        intro path missing
        refine membersAt_eq_nil fun other member same => ?_
        have there := resolved other (List.mem_cons_of_mem edit member)
        simp [same, missing] at there
      simp only [applyEdits, applyEdit_eq_extend (resolved edit List.mem_cons_self), ih _ later,
        Program.extend_extend _ _ covers, membersAt_cons, List.flatMap_cons, List.length_append]

theorem planClasses_edits (policy : ConflictPolicy) (entries : List TaggedClass) :
    (planClasses policy entries).edits =
      entries.map fun entry => ⟨entry.path, (planClass policy entry.decl).members⟩ := by
  induction entries with
  | nil => rfl
  | cons entry rest ih => simp [planClasses, ih]

/-- What a round adds to the classes of a program. -/
def additions (settings : Settings) (program : Program) (elements : List TaggedElement) :
    Additions := membersAt (planRound settings program elements).edits

theorem edit_resolves {edit : Edit} (member : edit ∈ (planRound settings program elements).edits) :
    ∃ decl, program.classAt? edit.path = some decl ∧
      edit.members = (planClass settings.policy decl).members := by
  rw [planRound, planClasses_edits] at member
  obtain ⟨entry, inside, rfl⟩ := List.mem_map.mp member
  exact ⟨entry.decl, classAt?_of_mem_taggedClasses inside, rfl⟩

theorem applyEdits_planRound (settings : Settings) (program : Program)
    (elements : List TaggedElement) :
    applyEdits program (planRound settings program elements).edits =
      (program.extend (additions settings program elements),
        ((planRound settings program elements).edits.flatMap (·.members)).length) := by
  refine applyEdits_eq_extend program _ fun edit member => ?_
  obtain ⟨decl, reached, _⟩ := edit_resolves member
  simp [reached]

theorem round_program (settings : Settings) (program : Program) (elements : List TaggedElement) :
    (round settings program elements).program =
      program.extend (additions settings program elements) := by
  simp [round, applyEdits_planRound]

theorem round_methodsAdded (settings : Settings) (program : Program)
    (elements : List TaggedElement) :
    (round settings program elements).outcome.methodsAdded =
      ((planRound settings program elements).edits.flatMap (·.members)).length := by
  simp [round, applyEdits_planRound]

/-- Each marked class gets one edit. -/
theorem edits_of_mem {entry : TaggedClass} (member : entry ∈ taggedClasses program elements) :
    (planRound settings program elements).edits.filter (·.path == entry.path) =
      [⟨entry.path, (planClass settings.policy entry.decl).members⟩] := by
  have rising := taggedClasses_rising program elements
  rw [planRound, planClasses_edits]
  generalize taggedClasses program elements = entries at member rising
  induction entries with
  | nil => cases member
  | cons first rest ih =>
      obtain ⟨before, restRising⟩ := List.pairwise_cons.mp rising
      rcases List.mem_cons.mp member with rfl | later
      · have none : (rest.map fun other =>
            (⟨other.path, (planClass settings.policy other.decl).members⟩ : Edit)).filter
              (·.path == entry.path) = [] := by
          simp only [List.filter_eq_nil_iff, List.mem_map, forall_exists_index, and_imp,
            forall_apply_eq_imp_iff₂, beq_iff_eq]
          intro other inside same
          exact List.lt_irrefl _ (same ▸ before other inside)
        simp [none]
      · have apart : ¬ first.path = entry.path := fun same =>
          List.lt_irrefl _ (same ▸ before entry later)
        simpa [apart] using ih later restRising

theorem additions_of_mem {entry : TaggedClass}
    (member : entry ∈ taggedClasses program elements) :
    additions settings program elements entry.path =
      (planClass settings.policy entry.decl).members := by
  rw [additions, membersAt, edits_of_mem member]
  exact List.append_nil _

theorem mem_planFields {policy : ConflictPolicy} {decl : Class} {planned : Planned}
    {entries : List FieldMember} {member : Member}
    (inside : member ∈ (planFields policy decl planned entries).members) :
    ∃ entry ∈ entries, ∃ pair, synthesize decl.name entry.field entry.span = .ok pair ∧
      ∃ method ∈ pair.methods, member = .method entry.span method := by
  induction entries generalizing planned with
  | nil => cases inside
  | cons entry rest ih =>
      simp only [planFields, FieldPlan.members, List.mem_append, List.mem_map] at inside
      rcases inside with ⟨method, accepted, rfl⟩ | later
      · refine ⟨entry, List.mem_cons_self, ?_⟩
        simp only [planField] at accepted
        cases made : synthesize decl.name entry.field entry.span with
        | error fault => simp [made, FieldPlan.rejected] at accepted
        | ok pair =>
            rw [made] at accepted
            refine ⟨pair, rfl, method, ?_, rfl⟩
            rcases settle_cases policy decl planned entry.field.name entry.span pair.methods with
              ⟨_, nothing, _⟩ | ⟨_, kept, _⟩
            · simp [nothing] at accepted
            · rw [kept] at accepted
              exact (List.mem_filter.mp accepted).1
      · obtain ⟨other, member, found⟩ := ih later
        exact ⟨other, List.mem_cons_of_mem _ member, found⟩

/-- Every member that a round adds is an accessor of a field of the class that it is added to. -/
theorem mem_additions {path : Path} {member : Member}
    (inside : member ∈ additions settings program elements path) :
    ∃ decl, program.classAt? path = some decl ∧
      ∃ entry ∈ decl.fields, ∃ pair, synthesize decl.name entry.field entry.span = .ok pair ∧
        ∃ method ∈ pair.methods, member = .method entry.span method := by
  obtain ⟨edit, held, present⟩ := List.mem_flatMap.mp inside
  obtain ⟨planned, same⟩ := List.mem_filter.mp held
  obtain ⟨decl, reached, members⟩ := edit_resolves planned
  rw [members] at present
  exact ⟨decl, (eq_of_beq same) ▸ reached, mem_planFields present⟩

theorem additions_flat (settings : Settings) (program : Program) (elements : List TaggedElement) :
    (additions settings program elements).Flat := by
  intro path member inside
  obtain ⟨_, _, _, _, _, _, method, _, rfl⟩ := mem_additions inside
  rfl

theorem additions_noFields {path : Path} {member : Member}
    (inside : member ∈ additions settings program elements path) : member.isField = false := by
  obtain ⟨_, _, _, _, _, _, method, _, rfl⟩ := mem_additions inside
  rfl

theorem extend_additions {entry : TaggedClass} (inside : entry ∈ taggedClasses program elements) :
    let after := entry.decl.extend ((additions settings program elements).below entry.path)
    after.name = entry.decl.name ∧ after.fields = entry.decl.fields ∧
      after.methods = entry.decl.methods ++ (planClass settings.policy entry.decl).methods := by
  have own : (additions settings program elements).below entry.path [] =
      (planClass settings.policy entry.decl).members := by
    simpa [Additions.below] using additions_of_mem inside
  refine ⟨Class.extend_name _ _, Class.fields_extend fun added held => additions_noFields held, ?_⟩
  rw [Class.methods_extend, own]
  rfl

theorem taggedClasses_round (settings : Settings) (program : Program)
    (elements : List TaggedElement) :
    taggedClasses (round settings program elements).program elements =
      (taggedClasses program elements).map fun entry =>
        { entry with
          decl := entry.decl.extend ((additions settings program elements).below entry.path) } := by
  rw [round_program, taggedClasses_extend (additions_flat settings program elements)]

/-- After a round nothing is planned for any of its classes. -/
theorem planRound_again (settings : Settings) (program : Program)
    (elements : List TaggedElement) :
    ∀ edit ∈ (planRound settings (round settings program elements).program elements).edits,
      edit.members = [] := by
  intro edit member
  rw [planRound, planClasses_edits, taggedClasses_round] at member
  obtain ⟨again, inside, rfl⟩ := List.mem_map.mp member
  obtain ⟨entry, first, rfl⟩ := List.mem_map.mp inside
  obtain ⟨name, fields, methods⟩ := extend_additions first
  exact planClass_again name fields methods

theorem round_of_unplanned
    (nothing : ∀ edit ∈ (planRound settings program elements).edits, edit.members = []) :
    (round settings program elements).outcome.methodsAdded = 0 ∧
      (round settings program elements).program = program := by
  have noAdditions : additions settings program elements = .none := by
    funext path
    apply List.flatMap_eq_nil_iff.mpr
    intro edit held
    exact nothing edit (List.mem_filter.mp held).1
  constructor
  · rw [round_methodsAdded, List.length_eq_zero_iff]
    exact List.flatMap_eq_nil_iff.mpr nothing
  · rw [round_program, noAdditions, Program.extend_none]

/-- A round is idempotent. Over the same elements, whatever they are, a second round adds no method
and leaves the program as the first one left it. -/
theorem round_idempotent (settings : Settings) (program : Program)
    (elements : List TaggedElement) :
    let first := round settings program elements
    let second := round settings first.program elements
    second.outcome.methodsAdded = 0 ∧ second.program = first.program :=
  round_of_unplanned (planRound_again settings program elements)

end DataClass.Accessor
