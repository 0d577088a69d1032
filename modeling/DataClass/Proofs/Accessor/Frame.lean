import DataClass.Proofs.Accessor.FieldPlans
import DataClass.Proofs.Accessor.Marked
namespace DataClass.Accessor

/-! What a round leaves alone. All that it does is to add accessors behind the members of marked
classes. -/

/-- The accessors that can be made for a field, the getter first. -/
def offered (owner : String) (entry : FieldMember) : List Method :=
  match synthesize owner entry.field entry.span with
  | .ok pair => pair.methods
  | .error _ => []

/-- Members made of accessors of fields: field by field in their order, some of those that can be made,
each at the place of its field. -/
inductive AccessorsOf (owner : String) : List FieldMember → List Member → Prop where
  | none : AccessorsOf owner [] []
  | field {entry : FieldMember} {rest : List FieldMember} {made : List Method} {later : List Member}
      (some : made.Sublist (offered owner entry)) (others : AccessorsOf owner rest later) :
      AccessorsOf owner (entry :: rest) (made.map (.method entry.span) ++ later)

variable {settings : Settings} {program : Program} {elements : List TaggedElement}

theorem accessorsOf_nil (owner : String) (entries : List FieldMember) :
    AccessorsOf owner entries [] := by
  induction entries with
  | nil => exact .none
  | cons entry rest ih => exact .field (List.nil_sublist _) ih

theorem accepted_sublist (policy : ConflictPolicy) (decl : Class) (planned : Planned)
    (entry : FieldMember) :
    (planField policy decl planned entry).accepted.Sublist (offered decl.name entry) := by
  unfold planField offered
  cases synthesize decl.name entry.field entry.span with
  | error fault => exact List.nil_sublist _
  | ok pair =>
      rcases settle_cases policy decl planned entry.field.name entry.span pair.methods with
        ⟨_, nothing, _⟩ | ⟨_, accepted, _⟩
      · dsimp only
        rw [nothing]
        exact List.nil_sublist _
      · dsimp only
        rw [accepted]
        exact List.filter_sublist

theorem accessorsOf_planFields (policy : ConflictPolicy) (decl : Class) (planned : Planned)
    (entries : List FieldMember) :
    AccessorsOf decl.name entries (planFields policy decl planned entries).members := by
  induction entries generalizing planned with
  | nil => exact .none
  | cons entry rest ih => exact .field (accepted_sublist policy decl planned entry) (ih _)

theorem additions_of_unmarked {path : Path}
    (unmarked : ¬ ∃ element ∈ elements, element.kind = .type ∧ element.path = path) :
    additions settings program elements path = [] := by
  refine membersAt_eq_nil fun edit inside same => unmarked ?_
  rw [planRound, planClasses_edits] at inside
  obtain ⟨entry, held, rfl⟩ := List.mem_map.mp inside
  exact (exists_taggedClass.mp ⟨entry, held, same, rfl⟩).1

/-- What a round adds to a class is made of accessors of its own fields. -/
theorem accessorsOf_additions {path : Path} {decl : Class}
    (found : program.classAt? path = some decl) :
    AccessorsOf decl.name decl.fields (additions settings program elements path) := by
  by_cases marked : ∃ element ∈ elements, element.kind = .type ∧ element.path = path
  · obtain ⟨entry, inside, rfl, rfl⟩ := exists_taggedClass.mpr ⟨marked, found⟩
    rw [additions_of_mem inside]
    exact accessorsOf_planFields settings.policy entry.decl [] entry.decl.fields
  · rw [additions_of_unmarked marked]
    exact accessorsOf_nil _ _

/-- A round only appends, and only where a class is marked. The program is the one from before with
members behind those of its classes. Nothing is added at an address without a marked class; what is
added to a class are accessors of its own direct fields, in their order. -/
theorem round_appends (settings : Settings) (program : Program) (elements : List TaggedElement) :
    ∃ added : Additions,
      (round settings program elements).program = program.extend added ∧
      ∀ path,
        (round settings program elements).program.classAt? path =
          (program.classAt? path).map (Class.extend (added.below path)) ∧
        (added path ≠ [] → (∃ element ∈ elements, element.kind = .type ∧ element.path = path) ∧
          (program.classAt? path).isSome) ∧
        ∀ decl, program.classAt? path = some decl →
          AccessorsOf decl.name decl.fields (added path) := by
  have same := round_program settings program elements
  refine ⟨additions settings program elements, same, fun path => ⟨?_, fun some => ?_, ?_⟩⟩
  · rw [same, Program.classAt?_extend (additions_flat settings program elements)]
  · obtain ⟨member, inside⟩ := List.exists_mem_of_ne_nil _ some
    obtain ⟨decl, found, _⟩ := mem_additions inside
    refine ⟨?_, by rw [found]; rfl⟩
    apply Decidable.byContradiction
    intro unmarked
    exact some (additions_of_unmarked unmarked)
  · exact fun decl found => accessorsOf_additions found

end DataClass.Accessor
