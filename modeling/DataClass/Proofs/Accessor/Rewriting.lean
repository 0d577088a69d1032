import DataClass.Proofs.Accessor.Reports
import DataClass.Proofs.Accessor.Writable
import DataClass.Proofs.Layout.RoundTrip
namespace DataClass.Accessor

/-! Running the pass over a program that it has been run over before, and that has been written and
read in between. -/

open Layout

variable {settings : Settings} {program again : Program} {elements : List TaggedElement}

theorem expand_of_ofSource {source : String} (read : Program.ofSource source = .ok program) :
    expand settings source = .ok (run settings program) := by
  rw [expand, read]
  rfl

theorem exists_of_expand {source : String} {result : Run}
    (expanded : expand settings source = .ok result) :
    ∃ program, Program.ofSource source = .ok program ∧ result = run settings program := by
  cases read : Program.ofSource source with
  | error faults => simp [expand, read, bind, Except.bind] at expanded
  | ok program =>
      rw [expand_of_ofSource read] at expanded
      exact ⟨program, rfl, (Except.ok.inj expanded).symm⟩

theorem anyError_round_iff :
    anyError (round settings program elements).diagnostics = false ↔
      ∀ entry ∈ taggedClasses program elements,
        anyError (planClass settings.policy entry.decl).diagnostics = false := by
  have all (entries : List TaggedClass) :
      anyError (planClasses settings.policy entries).diagnostics = false ↔
        ∀ entry ∈ entries, anyError (planClass settings.policy entry.decl).diagnostics = false := by
    induction entries with
    | nil => simp [planClasses, anyError]
    | cons entry rest ih =>
        simp only [planClasses, anyError_append, Bool.or_eq_false_iff, ih, List.forall_mem_cons]
  exact all (taggedClasses program elements)

theorem methodsAdded_eq_zero_iff :
    (round settings program elements).outcome.methodsAdded = 0 ↔
      ∀ entry ∈ taggedClasses program elements, (planClass settings.policy entry.decl).members = [] := by
  rw [round_methodsAdded, List.length_eq_zero_iff, List.flatMap_eq_nil_iff, planRound,
    planClasses_edits]
  simp

theorem round_of_methodsAdded
    (nothing : (round settings program elements).outcome.methodsAdded = 0) :
    (round settings program elements).program = program := by
  have unplanned : ∀ edit ∈ (planRound settings program elements).edits, edit.members = [] := by
    rw [planRound, planClasses_edits]
    exact List.forall_mem_map.mpr (methodsAdded_eq_zero_iff.mp nothing)
  exact (round_of_unplanned unplanned).2

theorem exists_of_isMarked_round {decl : Class}
    (marked : IsMarked (.ofText settings.marker)
      (round settings program (tagged (.ofText settings.marker) program)).program decl) :
    (planClass settings.policy decl).members = [] ∧
      ∃ entry ∈ taggedClasses program (tagged (.ofText settings.marker) program),
        decl.fields = entry.decl.fields ∧
          decl.methods = entry.decl.methods ++ (planClass settings.policy entry.decl).methods := by
  obtain ⟨after, inside, rfl⟩ := marked
  rw [tagged_round, taggedClasses_round] at inside
  obtain ⟨entry, first, rfl⟩ := List.mem_map.mp inside
  obtain ⟨name, fields, methods⟩ := extend_additions first
  exact ⟨planClass_again name fields methods, entry, first, fields, methods⟩

theorem IsMarked.writable {marker : Marker} {decl : Class} (marked : IsMarked marker program decl)
    (writable : program.Writable) : decl.Writable := by
  obtain ⟨path, _, reached⟩ := isMarked_iff.mp marked
  exact writable.classAt? reached

/-- Conflicts are errors, and a marked class has a field `inf` to which its setter assigns an infinite
number. -/
def LeavesInfinity (settings : Settings) (program : Program) : Prop :=
  settings.policy = .error ∧
    ∃ decl, IsMarked (.ofText settings.marker) program decl ∧ ∃ type, AssignsInfinity decl type

/-- After a program for which nothing is left to do has been written and read back, there is still
nothing to do, but for the getter of a field `inf`. -/
theorem methodsAdded_reread_iff (writable : program.Writable) (readable : again.Writable)
    (same : again.erase = program.spelled.erase)
    (settled : ∀ decl, IsMarked (.ofText settings.marker) program decl →
      (planClass settings.policy decl).members = []) :
    (round settings again (tagged (.ofText settings.marker) again)).outcome.methodsAdded = 0 ↔
      ¬ LeavesInfinity settings program := by
  obtain ⟨backward, forward⟩ := isMarked_of_erase same
  have reread {decl old : Class} (marked : IsMarked (.ofText settings.marker) again decl)
      (before : IsMarked (.ofText settings.marker) program old)
      (equal : decl.erase = old.spelled.erase) :=
    planClass_reread_iff (before.writable writable) (marked.writable readable) equal
      (settled old before)
  rw [methodsAdded_eq_zero_iff]
  constructor
  · rintro nothing ⟨strict, old, before, infinity⟩
    obtain ⟨decl, ⟨entry, inside, rfl⟩, equal⟩ := forward old before
    exact (reread ⟨entry, inside, rfl⟩ before equal).mp (nothing entry inside) ⟨strict, infinity⟩
  · intro finite entry inside
    obtain ⟨old, before, equal⟩ := backward entry.decl ⟨entry, inside, rfl⟩
    apply (reread ⟨entry, inside, rfl⟩ before equal).mpr
    rintro ⟨strict, infinity⟩
    exact finite ⟨strict, old, before, infinity⟩

theorem anyError_reread (readable : again.Writable) (same : again.erase = program.spelled.erase)
    (provided : ∀ decl, IsMarked (.ofText settings.marker) program decl →
      Provided settings.policy decl) :
    anyError (round settings again (tagged (.ofText settings.marker) again)).diagnostics = false := by
  rw [anyError_round_iff]
  intro entry inside
  have marked : IsMarked (.ofText settings.marker) again entry.decl := ⟨entry, inside, rfl⟩
  obtain ⟨old, before, equal⟩ := (isMarked_of_erase same).1 entry.decl marked
  exact ((provided old before).of_erase equal).quiet (marked.writable readable)

theorem members_eq_nil_of_methods {policy : ConflictPolicy} {decl : Class}
    (none : (planClass policy decl).methods = []) : (planClass policy decl).members = [] := by
  apply List.eq_nil_iff_forall_not_mem.mpr
  intro member inside
  obtain ⟨entry, _, _, _, method, _, rfl⟩ := mem_planFields inside
  have found : method ∈ (planClass policy decl).methods :=
    List.mem_filterMap.mpr ⟨.method entry.span method, inside, rfl⟩
  rw [none] at found
  cases found

theorem length_methods_of_spelled {left right : Class}
    (same : left.spelled.erase = right.spelled.erase) :
    left.methods.length = right.methods.length := by
  have methods := congrArg Class.methods same
  rw [Class.memberwise_erase.methods, Class.memberwise_spelled.methods,
    Class.memberwise_erase.methods, Class.memberwise_spelled.methods] at methods
  simpa using congrArg List.length methods

/-- Programs that are written in the same way are the same up to places and infinite numbers. -/
theorem spelled_of_text {other : Program} (writable : program.Writable) (others : other.Writable)
    {style : Style} (same : other.text style = program.text style) :
    other.spelled.erase = program.spelled.erase := by
  obtain ⟨_, read, equal⟩ := Program.ofSource_text_spelled writable style
  obtain ⟨_, otherRead, otherEqual⟩ := Program.ofSource_text_spelled others style
  rw [same, read] at otherRead
  obtain rfl := Except.ok.inj otherRead
  exact otherEqual.symm.trans equal

/-- A round that adds anything changes how the program is written. -/
theorem methodsAdded_of_text (writable : program.Writable) {style : Style}
    (same : (round settings program elements).program.text style = program.text style) :
    (round settings program elements).outcome.methodsAdded = 0 := by
  have equal := spelled_of_text writable (writable_round writable settings elements) same
  rw [methodsAdded_eq_zero_iff]
  intro entry inside
  have reached := classAt?_of_mem_taggedClasses inside
  have classes := congrArg (Program.classAt? · entry.path) equal
  simp only [Program.classAt?_erase, Program.classAt?_spelled, round_program,
    Program.classAt?_extend_of_some _ reached, reached, Option.map_some, Option.some.injEq] at classes
  obtain ⟨_, _, methods⟩ := extend_additions inside
  have lengths := length_methods_of_spelled classes
  rw [methods, List.length_append] at lengths
  apply members_eq_nil_of_methods
  apply List.eq_nil_of_length_eq_zero
  omega

theorem writable_run (allowed : 1 ≤ settings.maxRounds) (writable : program.Writable) :
    (run settings program).program.Writable := by
  rw [(run_results allowed program).1]
  exact writable_round writable settings _

/-- A run without an error leaves its classes with all that a further run asks for. -/
theorem provided_run (allowed : 1 ≤ settings.maxRounds) (writable : program.Writable)
    (quiet : (run settings program).hasErrors = false) {decl : Class}
    (marked : IsMarked (.ofText settings.marker) (run settings program).program decl) :
    Provided settings.policy decl := by
  obtain ⟨result, _, reported⟩ := run_results allowed program
  rw [result] at marked
  rw [Run.hasErrors, reported] at quiet
  obtain ⟨_, entry, inside, fields, methods⟩ := exists_of_isMarked_round marked
  exact provided_of_quiet (writable.classAt? (classAt?_of_mem_taggedClasses inside))
    (anyError_round_iff.mp quiet entry inside) fields methods

theorem not_leavesInfinity_of_quiet (allowed : 1 ≤ settings.maxRounds) (writable : program.Writable)
    (quiet : (run settings program).hasErrors = false) :
    ¬ LeavesInfinity settings (run settings program).program := by
  rintro ⟨strict, decl, marked, type, infinity⟩
  obtain ⟨found, typed, _, both⟩ :=
    provided_run allowed writable quiet marked _ infinity.accessible.listed
  obtain rfl := Option.some.inj typed
  exact infinity.noSetter (both strict).2

theorem hasErrors_run_reread (allowed : 1 ≤ settings.maxRounds) (writable : program.Writable)
    (readable : again.Writable)
    (same : again.erase = (run settings program).program.spelled.erase)
    (quiet : (run settings program).hasErrors = false) : (run settings again).hasErrors = false := by
  rw [Run.hasErrors, (run_results allowed again).2.2]
  exact anyError_reread readable same fun _ => provided_run allowed writable quiet

theorem methodsAdded_run_reread_iff (allowed : 1 ≤ settings.maxRounds) (writable : program.Writable)
    (readable : again.Writable)
    (same : again.erase = (run settings program).program.spelled.erase) :
    (run settings again).outcome.methodsAdded = 0 ↔
      ¬ LeavesInfinity settings (run settings program).program := by
  rw [(run_results allowed again).2.1]
  apply methodsAdded_reread_iff (writable_run allowed writable) readable same
  intro decl marked
  rw [(run_results allowed program).1] at marked
  exact (exists_of_isMarked_round marked).1

theorem text_run_iff (allowed : 1 ≤ settings.maxRounds) (writable : program.Writable) (style : Style) :
    (run settings program).program.text style = program.text style ↔
      (run settings program).outcome.methodsAdded = 0 := by
  obtain ⟨result, added, _⟩ := run_results allowed program
  rw [result, added]
  exact ⟨methodsAdded_of_text writable, fun nothing => by rw [round_of_methodsAdded nothing]⟩

/-- What a run without an error has written is read as a program for which a further run reports no
error either, and gives the same text. -/
theorem exists_reread_of_quiet (allowed : 1 ≤ settings.maxRounds) (writable : program.Writable)
    (quiet : (run settings program).hasErrors = false) (style : Style) :
    ∃ again, Program.ofSource ((run settings program).program.text style) = .ok again ∧
      (run settings again).hasErrors = false ∧
      (run settings again).program.text style = (run settings program).program.text style := by
  have after := writable_run allowed writable
  obtain ⟨again, reread, same⟩ := Program.ofSource_text_spelled after style
  have readable := Program.writable_of_ofSource reread
  refine ⟨again, reread, hasErrors_run_reread allowed writable readable same quiet, ?_⟩
  rw [← Program.text_of_erase after readable same style, text_run_iff allowed readable,
    methodsAdded_run_reread_iff allowed writable readable same]
  exact not_leavesInfinity_of_quiet allowed writable quiet

/-- A program without a marked element is accepted in every text of it, and nothing is added. -/
theorem exists_text_of_unmarked (none : tagged (.ofText settings.marker) program = [])
    (writable : program.Writable) (first second : Style) :
    ∃ again, Program.ofSource (program.text first) = .ok again ∧
      (run settings again).hasErrors = false ∧
      (run settings again).program.text second = program.text second := by
  obtain ⟨again, read, same⟩ := Program.ofSource_text_spelled writable first
  have readable := Program.writable_of_ofSource read
  refine ⟨again, read, ?_⟩
  rw [run_of_unmarked (tagged_of_erase same none)]
  exact ⟨rfl, Program.text_of_erase writable readable same second⟩

/-- Running the pass over what it has written. The text can be read. The second run reports no error
if the first one did not, and it adds nothing and gives the same text again, unless a marked class
has a field `inf`, no getter for it, and a setter that assigns an infinite number to it. Such a number
is written as a name, so that this setter is read as the setter of the field. -/
theorem expand_text {source : String} {first : Run} (allowed : 1 ≤ settings.maxRounds)
    (expanded : expand settings source = .ok first) (style : Style) :
    ∃ second, expand settings (first.program.text style) = .ok second ∧
      (first.hasErrors = false → second.hasErrors = false) ∧
      (second.outcome.methodsAdded = 0 ↔ ¬ LeavesInfinity settings first.program) ∧
      (second.program.text style = first.program.text style ↔
        second.outcome.methodsAdded = 0) := by
  obtain ⟨program, read, rfl⟩ := exists_of_expand expanded
  have writable := Program.writable_of_ofSource read
  have after := writable_run allowed writable
  obtain ⟨again, reread, same⟩ := Program.ofSource_text_spelled after style
  have readable := Program.writable_of_ofSource reread
  have text := Program.text_of_erase after readable same style
  refine ⟨run settings again, expand_of_ofSource reread,
    hasErrors_run_reread allowed writable readable same,
    methodsAdded_run_reread_iff allowed writable readable same, ?_⟩
  rw [← text]
  exact text_run_iff allowed readable style

theorem exists_expanded (check : Run → Bool) {chars : List Char}
    (scanned : (Token.scanFrom 0 chars).2 = [])
    (passed : ((Program.ofTokens (Token.scanFrom 0 chars).1).map (check ∘ run .standard)).toOption =
      some true) :
    ∃ first, expand .standard (.ofList chars) = .ok first ∧ check first = true := by
  obtain ⟨program, read, passed⟩ := Program.exists_read_ofList (check ∘ run .standard) scanned passed
  exact ⟨run .standard program, expand_of_ofSource read, passed⟩

/-- A class with a setter that assigns a number of 310 digits, which is infinite. -/
def constantSetterText : List Char :=
  "@Data class A \x7b inf: Float; pub fn setInf(inf: Float) \x7b this.inf = 1".toList ++
    List.replicate 309 '0' ++ ".0; \x7d \x7d".toList

theorem expand_text_constantSetter :
    ∃ first second, expand .standard (.ofList constantSetterText) = .ok first ∧
      expand .standard (first.program.text .standard) = .ok second ∧
      LeavesInfinity .standard first.program ∧ second.outcome.methodsAdded = 1 ∧
      second.program.text .standard ≠ first.program.text .standard := by
  let check (first : Run) : Bool :=
    ((expand .standard (first.program.text .standard)).map fun second =>
      second.outcome.methodsAdded).toOption == some 1
  have found : ∃ first, expand .standard (.ofList constantSetterText) = .ok first ∧
      check first = true := exists_expanded check (by decide +kernel) (by decide +kernel)
  obtain ⟨first, expanded, passed⟩ := found
  obtain ⟨second, again, _, leaves, text⟩ := expand_text (by decide) expanded .standard
  have added : second.outcome.methodsAdded = 1 := by
    simpa [check, again, Except.map, Except.toOption] using passed
  have changed : second.outcome.methodsAdded ≠ 0 := by omega
  exact ⟨first, second, expanded, again, Classical.not_not.mp (changed ∘ leaves.mpr), added,
    changed ∘ text.mp⟩

end DataClass.Accessor
