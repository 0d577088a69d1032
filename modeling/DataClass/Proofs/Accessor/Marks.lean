import DataClass.Accessor.Round
import DataClass.Proofs.Accessor.Marked
import DataClass.Proofs.Layout.RoundTrip
import Mathlib.Data.List.Sort
namespace DataClass.Accessor

/-! What a round does is decided by the set of marked addresses and kinds. The order of the marks, how
often one of them comes, and the names and ranges they come with make no difference. -/

/-- The lists mark the same addresses, with the same kinds. -/
def SameMarks (one two : List TaggedElement) : Prop :=
  ∀ path kind, (∃ element ∈ one, element.path = path ∧ element.kind = kind) ↔
    ∃ element ∈ two, element.path = path ∧ element.kind = kind

variable {one two : List TaggedElement}

/-- The addresses of the marked classes. -/
def classPaths (elements : List TaggedElement) : List Path := (classEntries elements).map (·.1)

theorem classPaths_rising (elements : List TaggedElement) :
    (classPaths elements).Pairwise (· < ·) :=
  List.pairwise_map.mpr (classEntries_rising elements)

theorem mem_classPaths {elements : List TaggedElement} {path : Path} :
    path ∈ classPaths elements ↔ ∃ element ∈ elements, element.path = path ∧ element.kind = .type := by
  rw [classPaths, mem_map_classEntries]
  simp only [and_comm]

theorem classPaths_eq (same : SameMarks one two) : classPaths one = classPaths two :=
  (classPaths_rising one).eq_of_mem_iff (classPaths_rising two) fun path => by
    rw [mem_classPaths, mem_classPaths, same path .type]

namespace TaggedClass

def unplaced (entry : TaggedClass) : TaggedClass := { entry with span := .origin }

end TaggedClass

/-- The place of a mark is not looked at in planning. -/
theorem planClasses_unplaced (policy : ConflictPolicy) (entries : List TaggedClass) :
    planClasses policy (entries.map TaggedClass.unplaced) = planClasses policy entries := by
  induction entries with
  | nil => rfl
  | cons entry rest ih => rw [List.map_cons, planClasses, planClasses, ih]; rfl

/-- But for the places of their marks, the marked classes are those at the marked addresses. -/
theorem taggedClasses_unplaced (program : Program) (elements : List TaggedElement) :
    (taggedClasses program elements).map TaggedClass.unplaced =
      (classPaths elements).filterMap fun path =>
        (program.classAt? path).map fun decl => ⟨path, .origin, decl⟩ := by
  rw [taggedClasses, classPaths, List.map_filterMap, List.filterMap_map]
  congr 1
  funext entry
  cases found : program.classAt? entry.1 <;> simp [found, TaggedClass.unplaced]

theorem planRound_eq (settings : Settings) (program : Program) (same : SameMarks one two) :
    planRound settings program one = planRound settings program two := by
  have classes : (taggedClasses program one).map TaggedClass.unplaced =
      (taggedClasses program two).map TaggedClass.unplaced := by
    rw [taggedClasses_unplaced, taggedClasses_unplaced, classPaths_eq same]
  calc planRound settings program one
    _ = planClasses settings.policy ((taggedClasses program one).map TaggedClass.unplaced) :=
      (planClasses_unplaced settings.policy _).symm
    _ = planClasses settings.policy ((taggedClasses program two).map TaggedClass.unplaced) := by
      rw [classes]
    _ = planRound settings program two := planClasses_unplaced settings.policy _

/-- Two lists of marks with the same addresses and kinds give the same round: the same program, the
same outcome, and the same reports in the same order. -/
theorem round_of_sameMarks (settings : Settings) (program : Program) (same : SameMarks one two) :
    round settings program one = round settings program two := by
  simp only [round, planRound_eq settings program same]

theorem round_of_sameMarks_reversed :
    ∃ program, Program.ofSource "class A\x7ba:Int;class B\x7bb:Int;\x7d\x7dfn f()\x7b\x7d" = .ok program ∧
      let outer : TaggedElement := ⟨[0], .type, "A", .origin⟩
      let inner : TaggedElement := ⟨[0, 1], .type, "B", ⟨14, 27⟩⟩
      let other : TaggedElement := ⟨[1], .function, "f", .origin⟩
      let again : TaggedElement := ⟨[0], .type, "Z", ⟨3, 5⟩⟩
      SameMarks [outer, inner, other] [other, again, inner, outer] ∧
        (round .standard program [outer, inner, other]).outcome.methodsAdded = 4 ∧
        round .standard program [outer, inner, other] =
          round .standard program [other, again, inner, outer] := by
  have added : ∃ program,
      Program.ofSource "class A\x7ba:Int;class B\x7bb:Int;\x7d\x7dfn f()\x7b\x7d" = .ok program ∧
      ((round .standard program [⟨[0], .type, "A", .origin⟩, ⟨[0, 1], .type, "B", ⟨14, 27⟩⟩,
        ⟨[1], .function, "f", .origin⟩]).outcome.methodsAdded == 4) = true :=
    Program.exists_read _ (by decide +kernel)
  obtain ⟨program, read, added⟩ := added
  refine ⟨program, read, ?_⟩
  intro outer inner other again
  have same : SameMarks [outer, inner, other] [other, again, inner, outer] := by
    intro path kind
    simp only [List.mem_cons, List.not_mem_nil, or_false, exists_eq_or_imp, exists_eq_left]
    grind
  exact ⟨same, eq_of_beq added, round_of_sameMarks .standard program same⟩

end DataClass.Accessor
