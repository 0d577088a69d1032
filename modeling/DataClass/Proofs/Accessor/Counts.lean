import DataClass.Diagnostic.Counter
import DataClass.Proofs.Accessor.Convergence
import DataClass.Proofs.Accessor.Marks
import DataClass.Proofs.Program.Addressed
namespace DataClass

/-! The numbers that a round and a run give are those of what they report, add and process. -/

open Diagnostic

namespace Diagnostic

theorem errorCount_append (left right : List Diagnostic) :
    errorCount (left ++ right) = errorCount left + errorCount right :=
  List.countP_append

theorem Counter.errors_reportAll (counter : Counter) (diagnostics : List Diagnostic) :
    (counter.reportAll diagnostics).errors = counter.errors + errorCount diagnostics := by
  induction diagnostics generalizing counter with
  | nil => rfl
  | cons diagnostic rest ih =>
      have later : (counter.reportAll (diagnostic :: rest)).errors =
          (counter.report diagnostic).errors + errorCount rest := ih (counter.report diagnostic)
      rw [later, Counter.report, errorCount, errorCount, List.countP_cons]
      cases diagnostic.isError
      · rfl
      · simp only [if_true]
        omega

end Diagnostic

namespace Accessor

variable {policy : ConflictPolicy} {decl : Class} {planned : Planned}
variable {program : Program}

/-! ### Errors -/

theorem errorCount_settle {field : String} {span : Span} {methods : List Method} :
    errorCount (settle policy decl planned field span methods).diagnostics =
      (settle policy decl planned field span methods).isRejected.toNat := by
  induction methods with
  | nil => rfl
  | cons method rest ih =>
      simp only [settle]
      cases slotFor decl planned method with
      | free =>
          dsimp only
          split <;> exact ih
      | identical => exact ih
      | taken obstacle =>
          cases policy with
          | error => rfl
          | skip => exact ih

/-- A field that is turned down gives one error, and no other field gives any. -/
theorem errorCount_planField {entry : FieldMember} :
    errorCount (planField policy decl planned entry).diagnostics =
      (planField policy decl planned entry).isRejected.toNat := by
  unfold planField
  cases synthesize decl.name entry.field entry.span with
  | error fault => rfl
  | ok pair => exact errorCount_settle

theorem errors_planFields (entries : List FieldMember) :
    (planFields policy decl planned entries).errors =
      errorCount (planFields policy decl planned entries).diagnostics := by
  induction entries generalizing planned with
  | nil => rfl
  | cons entry rest ih =>
      simp only [planFields, errorCount_append, errorCount_planField, ih]
      cases (planField policy decl planned entry).isRejected <;> rfl

theorem errors_planClasses (entries : List TaggedClass) :
    (planClasses policy entries).errors = errorCount (planClasses policy entries).diagnostics := by
  induction entries with
  | nil => rfl
  | cons entry rest ih =>
      simp only [planClasses, errorCount_append, ih, planClass, errors_planFields]

/-! ### Members -/

/-- Every edit adds as many members as it tells. -/
theorem memberTotal_applyEdit {edit : Edit} (flat : ∀ member ∈ edit.members, member.nested? = none) :
    (applyEdit program edit).1.memberTotal =
      program.memberTotal + (applyEdit program edit).2 := by
  cases reached : program.classAt? edit.path with
  | none =>
      rw [applyEdit, reached]
      split <;> rfl
  | some decl =>
      rw [applyEdit_eq_extend (by rw [reached]; rfl)]
      exact Program.memberTotal_extend_single reached flat

theorem memberTotal_applyEdits {edits : List Edit}
    (flat : ∀ edit ∈ edits, ∀ member ∈ edit.members, member.nested? = none) :
    (applyEdits program edits).1.memberTotal =
      program.memberTotal + (applyEdits program edits).2 := by
  induction edits generalizing program with
  | nil => rfl
  | cons edit rest ih =>
      obtain ⟨here, later⟩ := List.forall_mem_cons.mp flat
      rw [applyEdits, ih later, memberTotal_applyEdit here, Nat.add_assoc]

theorem planRound_flat (settings : Settings) (program : Program) (elements : List TaggedElement) :
    ∀ edit ∈ (planRound settings program elements).edits,
      ∀ member ∈ edit.members, member.nested? = none := by
  intro edit planned member inside
  obtain ⟨decl, _, members⟩ := edit_resolves planned
  rw [members] at inside
  obtain ⟨_, _, _, _, method, _, rfl⟩ := mem_planFields inside
  rfl

/-! ### Classes -/

theorem typesProcessed_planClasses (entries : List TaggedClass) :
    (planClasses policy entries).typesProcessed = entries.length := by
  induction entries with
  | nil => rfl
  | cons entry rest ih => rw [planClasses, ih, List.length_cons]

/-- The addresses at which an element is marked as a class. -/
def typePaths (elements : List TaggedElement) : List Path :=
  (elements.filter (·.kind == .type)).map (·.path)

/-- The addresses that are marked as a class, each only once. -/
def markedPaths (elements : List TaggedElement) : List Path :=
  (typePaths elements).dedup

theorem mem_markedPaths {elements : List TaggedElement} {path : Path} :
    path ∈ markedPaths elements ↔
      ∃ element ∈ elements, element.path = path ∧ element.kind = .type := by
  rw [markedPaths, List.mem_dedup, typePaths, List.mem_map]
  simp only [List.mem_filter, beq_iff_eq, and_assoc, and_comm (a := _ = ElementKind.type)]

theorem classPaths_perm (elements : List TaggedElement) :
    (classPaths elements).Perm (markedPaths elements) := by
  have distinct : (classPaths elements).Nodup := by
    refine (classPaths_rising elements).imp fun before same => ?_
    rw [same] at before
    exact List.lt_irrefl _ before
  refine (List.perm_ext_iff_of_nodup distinct (List.nodup_dedup _)).mpr fun path => ?_
  exact mem_classPaths.trans mem_markedPaths.symm

theorem typesProcessed_round (settings : Settings) (program : Program)
    (elements : List TaggedElement) :
    (round settings program elements).outcome.typesProcessed =
      (markedPaths elements).countP fun path => (program.classAt? path).isSome := by
  have entries : (round settings program elements).outcome.typesProcessed =
      (taggedClasses program elements).length := typesProcessed_planClasses _
  rw [entries, taggedClasses, List.length_filterMap_eq_countP, ← (classPaths_perm elements).countP_eq,
    classPaths, List.countP_map]
  congr 1
  funext entry
  exact Option.isSome_map

/-- The addresses of those classes that carry a marker. -/
def markedIn (marker : Marker) (entries : List (Path × Class)) : List Path :=
  (entries.filter fun entry => marker.isOn entry.2.tags).map (·.1)

theorem typePaths_append (left right : List TaggedElement) :
    typePaths (left ++ right) = typePaths left ++ typePaths right := by
  simp [typePaths]

theorem markedIn_append (marker : Marker) (left right : List (Path × Class)) :
    markedIn marker (left ++ right) = markedIn marker left ++ markedIn marker right := by
  simp [markedIn]

theorem typePaths_taggedIf {marker : Marker} {tags : List Tag} {element : TaggedElement}
    (other : element.kind ≠ .type) : typePaths (taggedIf marker tags element) = [] := by
  rw [taggedIf]
  split <;> simp [typePaths, other]

mutual

theorem typePaths_taggedInMember (marker : Marker) (path : Path) : (member : Member) →
    typePaths (taggedInMember marker path member) = markedIn marker (member.addressed path)
  | .nested span decl => by
      rw [taggedInMember, Member.addressed]
      exact typePaths_taggedInClass marker path span decl
  | .field _ _ | .method _ _ | .constructor _ _ => by
      rw [taggedInMember, Member.addressed]
      exact typePaths_taggedIf (by simp)
  | .initializer _ _ => by
      rw [taggedInMember, Member.addressed]
      rfl

theorem typePaths_taggedInClass (marker : Marker) (path : Path) (span : Span) : (decl : Class) →
    typePaths (taggedInClass marker path span decl) = markedIn marker (decl.addressed path)
  | ⟨tags, isPublic, name, members⟩ => by
      rw [taggedInClass, Class.addressed, typePaths_append,
        typePaths_taggedMembersFrom marker path 0 members, taggedIf]
      cases found : marker.isOn tags <;> simp [typePaths, markedIn, found]

theorem typePaths_taggedMembersFrom (marker : Marker) (path : Path) (index : Nat) :
    (members : List Member) →
    typePaths (taggedMembersFrom marker path index members) =
      markedIn marker (Member.addressedFrom path index members)
  | [] => rfl
  | member :: rest => by
      rw [taggedMembersFrom, Member.addressedFrom, typePaths_append, markedIn_append,
        typePaths_taggedInMember marker (path ++ [index]) member,
        typePaths_taggedMembersFrom marker path (index + 1) rest]

end

/-- The marked classes are those of all classes, at any depth, that carry the marker. -/
theorem typePaths_tagged (marker : Marker) (program : Program) :
    typePaths (tagged marker program) = markedIn marker program.addressed := by
  have from_ (index : Nat) (declarations : List Declaration) :
      typePaths (taggedDeclarationsFrom marker index declarations) =
        markedIn marker
          (Member.addressedFrom [] index (declarations.map Declaration.asMember)) := by
    induction declarations generalizing index with
    | nil => rfl
    | cons declaration rest ih =>
        have here : typePaths (taggedInDeclaration marker [index] declaration) =
            markedIn marker (declaration.asMember.addressed [index]) := by
          cases declaration with
          | importPath span path => rfl
          | type span decl => exact typePaths_taggedInClass marker [index] span decl
          | function span decl => exact typePaths_taggedIf (by simp)
        rw [taggedDeclarationsFrom, List.map_cons, Member.addressedFrom, typePaths_append,
          markedIn_append, here, ih, List.nil_append]
  exact from_ 0 program.declarations

theorem typesProcessed_tagged (settings : Settings) (marker : Marker) (program : Program) :
    (round settings program (tagged marker program)).outcome.typesProcessed =
      program.addressed.countP fun entry => marker.isOn entry.2.tags := by
  have distinct : (markedIn marker program.addressed).Nodup :=
    program.addressed_nodup.sublist (List.filter_sublist.map _)
  have paths : markedPaths (tagged marker program) = markedIn marker program.addressed := by
    rw [markedPaths, typePaths_tagged, distinct.dedup]
  have resolved : ∀ path ∈ markedIn marker program.addressed,
      (program.classAt? path).isSome = true := by
    intro path inside
    obtain ⟨⟨place, decl⟩, listed, rfl⟩ := List.mem_map.mp inside
    rw [Program.mem_addressed.mp (List.mem_filter.mp listed).1]
    rfl
  rw [typesProcessed_round, paths, List.countP_eq_length.mpr resolved, markedIn, List.length_map,
    List.countP_eq_length_filter]

/-! ### Rounds and runs -/

/-- The number of errors is that of the errors that were reported, to a list or to a sink that only
counts, and the number of added methods is that by which all classes together have grown. -/
structure Counted (before after : Program) (errors methodsAdded : Nat)
    (diagnostics : List Diagnostic) : Prop where
  collected : errors = errorCount diagnostics
  counter : errors = (Counter.empty.reportAll diagnostics).errors
  growth : after.memberTotal = before.memberTotal + methodsAdded

theorem counted_of_collected {after : Program} {errors methodsAdded : Nat}
    {diagnostics : List Diagnostic} (collected : errors = errorCount diagnostics)
    (growth : after.memberTotal = program.memberTotal + methodsAdded) :
    Counted program after errors methodsAdded diagnostics where
  collected := collected
  counter := by rw [Counter.errors_reportAll, collected, Counter.empty, Nat.zero_add]
  growth := growth

theorem counted_round (settings : Settings) (program : Program) (elements : List TaggedElement) :
    let once := round settings program elements
    Counted program once.program once.outcome.errors once.outcome.methodsAdded once.diagnostics :=
  counted_of_collected (errors_planClasses _)
    (memberTotal_applyEdits (planRound_flat settings program elements))

theorem counted_run (settings : Settings) (program : Program) :
    let run := run settings program
    Counted program run.program run.outcome.errors run.outcome.methodsAdded run.diagnostics := by
  by_cases none : tagged (.ofText settings.marker) program = []
  · rw [run_of_unmarked none]
    exact counted_of_collected rfl rfl
  · by_cases allowed : 1 ≤ settings.maxRounds
    · rw [run_of_marked allowed none]
      exact counted_round settings program _
    · obtain ⟨fault, isError, outcome⟩ := run_of_stopped (by omega) none
      rw [outcome]
      exact counted_of_collected (by simp [errorCount, isError]) rfl

theorem typesProcessed_run {settings : Settings} (allowed : 1 ≤ settings.maxRounds)
    (program : Program) :
    (run settings program).outcome.typesProcessed =
      program.addressed.countP fun entry => (Marker.ofText settings.marker).isOn entry.2.tags := by
  rw [← typesProcessed_tagged settings]
  by_cases none : tagged (.ofText settings.marker) program = []
  · rw [run_of_unmarked none, none]
    rfl
  · rw [run_of_marked allowed none]

theorem hasErrors_iff (run : Run) : run.hasErrors = true ↔ 0 < errorCount run.diagnostics := by
  rw [Run.hasErrors, List.any_eq_true, errorCount, List.countP_pos_iff]

/-- The outcome of a run tells the truth. It gives the number of errors that were reported, by how many
members the classes have grown together, and, if a round is allowed, how many classes carry the marker.
A round over any marked elements gives the same of its errors and members, and the number of different
addresses that are marked as a class and lead to one. -/
theorem run_counts (settings : Settings) (program : Program) :
    let run := run settings program
    Counted program run.program run.outcome.errors run.outcome.methodsAdded run.diagnostics ∧
    (run.hasErrors = true ↔ 0 < run.outcome.errors) ∧
    (1 ≤ settings.maxRounds → run.outcome.typesProcessed =
      program.addressed.countP fun entry => (Marker.ofText settings.marker).isOn entry.2.tags) ∧
    ∀ elements,
      let once := round settings program elements
      Counted program once.program once.outcome.errors once.outcome.methodsAdded
        once.diagnostics ∧
      once.outcome.typesProcessed =
        (markedPaths elements).countP fun path => (program.classAt? path).isSome := by
  have counted := counted_run settings program
  refine ⟨counted, ?_, fun allowed => typesProcessed_run allowed program, fun elements =>
    ⟨counted_round settings program elements, typesProcessed_round settings program elements⟩⟩
  rw [hasErrors_iff, counted.collected]

end Accessor

end DataClass
