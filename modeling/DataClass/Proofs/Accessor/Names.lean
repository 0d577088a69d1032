import DataClass.Proofs.Accessor.Convergence
import DataClass.Proofs.Accessor.Frame
namespace DataClass.Accessor

/-! No round gives a class two methods of one name.

An accessor is added only where its name belongs neither to a method of the class nor to an accessor
that is planned already. The two accessors of one field are looked at before either of them is
planned, but their names never coincide.
-/

variable {policy : ConflictPolicy} {decl : Class} {planned : Planned} {entry : FieldMember}
  {program : Program} {path : Path}

def methodNames (methods : List Method) : List String := methods.map (·.name)

theorem offered_nodup (owner : String) (entry : FieldMember) :
    (methodNames (offered owner entry)).Nodup := by
  unfold offered
  cases made : synthesize owner entry.field entry.span with
  | error fault => exact .nil
  | ok pair =>
      obtain ⟨type, _, _, _, rfl⟩ := synthesize_eq_ok made
      refine List.pairwise_pair.mpr fun same => ?_
      cases accessorName_lead same

theorem free_of_mem_accepted {method : Method}
    (inside : method ∈ (planField policy decl planned entry).accepted) :
    slotFor decl planned method = .free := by
  unfold planField at inside
  cases made : synthesize decl.name entry.field entry.span with
  | error fault => simp [made, FieldPlan.rejected] at inside
  | ok pair =>
      rw [made] at inside
      rcases settle_cases policy decl planned entry.field.name entry.span pair.methods with
        ⟨_, nothing, _⟩ | ⟨_, accepted, _⟩
      · simp [nothing] at inside
      · rw [accepted] at inside
        exact of_decide_eq_true (List.mem_filter.mp inside).2

/-- Methods that can join a class: their names differ from one another, from those that are planned
and from those of the methods that are there. -/
structure Joinable (decl : Class) (planned : Planned) (methods : List Method) : Prop where
  nodup : (methodNames methods).Nodup
  unplanned : ∀ method ∈ methods, method.name ∉ planned.names
  fresh : ∀ method ∈ methods, method.name ∉ decl.methodNames

theorem joinable_accepted (policy : ConflictPolicy) (decl : Class) (planned : Planned)
    (entry : FieldMember) : Joinable decl planned (planField policy decl planned entry).accepted := by
  have free : ∀ method ∈ (planField policy decl planned entry).accepted,
      method.name ∉ planned.names ∧ method.name ∉ decl.methodNames := by
    intro method inside
    obtain ⟨unplanned, fresh⟩ := slotFor_eq_free_iff.mp (free_of_mem_accepted inside)
    exact ⟨Planned.lookup_eq_none_iff.mp unplanned, fresh⟩
  have some := (accepted_sublist policy decl planned entry).map (·.name)
  exact ⟨(offered_nodup decl.name entry).sublist some, fun method inside => (free method inside).1,
    fun method inside => (free method inside).2⟩

/-- The names of a field that has been planned count as planned for the fields behind it. -/
theorem Joinable.append {plan : FieldPlan} {field : String} {later : List Method}
    (first : Joinable decl planned plan.accepted)
    (second : Joinable decl (plan.names field ++ planned) later) :
    Joinable decl planned (plan.accepted ++ later) := by
  have apart : ∀ method ∈ later,
      method.name ∉ methodNames plan.accepted ∧ method.name ∉ planned.names := by
    intro method inside
    have absent := second.unplanned method inside
    rw [names_append, List.mem_append, not_or] at absent
    exact absent
  refine ⟨?_, ?_, List.forall_mem_append.mpr ⟨first.fresh, second.fresh⟩⟩
  · rw [methodNames, List.map_append]
    refine List.nodup_append.mpr ⟨first.nodup, second.nodup, ?_⟩
    rintro name here _ there rfl
    obtain ⟨method, inside, rfl⟩ := List.mem_map.mp there
    exact (apart method inside).1 here
  · exact List.forall_mem_append.mpr
      ⟨first.unplanned, fun method inside => (apart method inside).2⟩

theorem joinable_planFields (policy : ConflictPolicy) (decl : Class) (planned : Planned)
    (entries : List FieldMember) :
    Joinable decl planned (planFields policy decl planned entries).methods := by
  induction entries generalizing planned with
  | nil => exact ⟨.nil, nofun, nofun⟩
  | cons entry rest ih =>
      rw [planFields_methods]
      exact (joinable_accepted policy decl planned entry).append (ih _)

/-- The methods that a round adds to the class at an address. -/
def methodsAt (settings : Settings) (program : Program) (elements : List TaggedElement)
    (path : Path) : List Method :=
  (additions settings program elements path).filterMap Member.method?

theorem joinable_methodsAt (settings : Settings) (elements : List TaggedElement)
    (found : program.classAt? path = some decl) :
    Joinable decl [] (methodsAt settings program elements path) := by
  unfold methodsAt
  by_cases marked : ∃ element ∈ elements, element.kind = .type ∧ element.path = path
  · obtain ⟨entry, inside, rfl, rfl⟩ := exists_taggedClass.mpr ⟨marked, found⟩
    rw [additions_of_mem inside]
    exact joinable_planFields settings.policy entry.decl [] entry.decl.fields
  · rw [additions_of_unmarked marked]
    exact ⟨.nil, nofun, nofun⟩

theorem classAt?_round (settings : Settings) (elements : List TaggedElement)
    (found : program.classAt? path = some decl) :
    ∃ after, (round settings program elements).program.classAt? path = some after ∧
      after.methods = decl.methods ++ methodsAt settings program elements path := by
  refine ⟨decl.extend ((additions settings program elements).below path), ?_, ?_⟩
  · rw [round_program, Program.classAt?_extend (additions_flat settings program elements), found]
    rfl
  · rw [Class.methods_extend, Additions.below, List.append_nil, methodsAt]

/-- There is a class at the address, and its methods have different names. -/
def HasDistinctMethods (path : Path) (program : Program) : Prop :=
  ∃ decl, program.classAt? path = some decl ∧ decl.methodNames.Nodup

theorem HasDistinctMethods.round (distinct : HasDistinctMethods path program) (settings : Settings)
    (elements : List TaggedElement) :
    HasDistinctMethods path (round settings program elements).program := by
  obtain ⟨decl, found, nodup⟩ := distinct
  obtain ⟨after, reached, methods⟩ := classAt?_round settings elements found
  have joinable := joinable_methodsAt settings elements found
  refine ⟨after, reached, ?_⟩
  rw [Class.methodNames, methods, List.map_append]
  refine List.nodup_append.mpr ⟨nodup, joinable.nodup, ?_⟩
  rintro name old _ new rfl
  obtain ⟨method, inside, rfl⟩ := List.mem_map.mp new
  exact joinable.fresh method inside old

/-- Rounds one after another, each with settings and marked elements of its own. -/
def roundsOver (program : Program) (turns : List (Settings × List TaggedElement)) : Program :=
  turns.foldl (fun program turn => (round turn.1 program turn.2).program) program

/-- What every round keeps is kept by any number of them. -/
theorem roundsOver_keeps {kept : Program → Prop}
    (step : ∀ settings program elements, kept program →
      kept (round settings program elements).program)
    (turns : List (Settings × List TaggedElement)) (start : kept program) :
    kept (roundsOver program turns) := by
  induction turns generalizing program with
  | nil => exact start
  | cons turn rest ih => exact ih (step turn.1 program turn.2 start)

/-- What every round keeps is kept by a run, however many rounds it takes. -/
theorem runFrom_keeps {kept : Program → Prop}
    (step : ∀ settings program elements, kept program →
      kept (round settings program elements).program)
    (settings : Settings) (processed : List Path) (left : Nat) (start : kept program) :
    kept (runFrom settings processed program left).program := by
  induction left generalizing processed program with
  | zero =>
      unfold runFrom
      cases freshElements settings processed program <;> exact start
  | succ left ih =>
      unfold runFrom
      cases freshElements settings processed program with
      | nil => exact start
      | cons first rest => exact ih _ (step settings program (first :: rest) start)

/-- No round ever creates a second method of a name. Behind the methods of a class there are, after a
round, methods whose names differ from one another and from all names that were there. So a class
whose methods have different names keeps this through any number of rounds and through a run. -/
theorem round_distinct_names (settings : Settings) (program : Program)
    (elements : List TaggedElement) :
    (∀ path decl, program.classAt? path = some decl →
      ∃ after added, (round settings program elements).program.classAt? path = some after ∧
        after.methods = decl.methods ++ added ∧ (added.map (·.name)).Nodup ∧
        ∀ method ∈ added, ∀ present ∈ decl.methods, method.name ≠ present.name) ∧
    ∀ path, HasDistinctMethods path program →
      (∀ turns, HasDistinctMethods path (roundsOver program turns)) ∧
      HasDistinctMethods path (run settings program).program := by
  have step : ∀ path settings program elements, HasDistinctMethods path program →
      HasDistinctMethods path (round settings program elements).program :=
    fun path settings program elements distinct => distinct.round settings elements
  refine ⟨fun path decl found => ?_, fun path distinct => ⟨fun turns => ?_, ?_⟩⟩
  · obtain ⟨after, reached, methods⟩ := classAt?_round settings elements found
    have joinable := joinable_methodsAt settings elements found
    refine ⟨after, _, reached, methods, joinable.nodup, fun method inside present held same => ?_⟩
    exact joinable.fresh method inside (same ▸ List.mem_map_of_mem held)
  · exact roundsOver_keeps (step path) turns distinct
  · exact runFrom_keeps (step path) settings [] settings.maxRounds distinct

end DataClass.Accessor
