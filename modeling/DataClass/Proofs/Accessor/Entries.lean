import DataClass.Accessor.Tagged
import DataClass.Proofs.Program.Extension
namespace DataClass

/-! The marked classes of a program: in the order of their addresses, each only once, and the same
ones after members without classes have been added. -/

namespace Path

theorem compare_eq_iff {left right : Path} : compare left right = .eq ↔ left = right := by
  fun_induction compare left right with
  | case1 => simp
  | case2 => simp
  | case3 => simp
  | case4 left lefts right rights below => simp; omega
  | case5 left lefts right rights _ above => simp; omega
  | case6 left lefts right rights notBelow notAbove ih =>
      have same : left = right := by omega
      simp [ih, same]

theorem compare_lt_iff {left right : Path} : compare left right = .lt ↔ left < right := by
  fun_induction compare left right with
  | case1 => simp
  | case2 => simp
  | case3 => simp
  | case4 left lefts right rights below => simp [List.cons_lt_cons_iff, below]
  | case5 left lefts right rights notBelow above =>
      simp only [reduceCtorEq, false_iff, List.cons_lt_cons_iff, not_or, not_and]
      exact ⟨notBelow, fun same => by omega⟩
  | case6 left lefts right rights notBelow notAbove ih =>
      have same : left = right := by omega
      simp [ih, same]

theorem compare_gt_iff {left right : Path} : compare left right = .gt ↔ right < left := by
  fun_induction compare left right with
  | case1 => simp
  | case2 => simp
  | case3 => simp
  | case4 left lefts right rights below =>
      simp only [reduceCtorEq, false_iff, List.cons_lt_cons_iff, not_or, not_and]
      exact ⟨by omega, fun same => by omega⟩
  | case5 left lefts right rights notBelow above => simp [List.cons_lt_cons_iff, above]
  | case6 left lefts right rights notBelow notAbove ih =>
      have same : left = right := by omega
      simp [ih, same]

end Path

namespace Accessor

/-- Entries with rising addresses. -/
def Rising (entries : List (Path × Span)) : Prop :=
  entries.Pairwise fun left right => left.1 < right.1

theorem mem_insertEntry {path : Path} {span : Span} {entries : List (Path × Span)}
    {entry : Path × Span} (member : entry ∈ insertEntry path span entries) :
    entry.1 = path ∨ entry ∈ entries := by
  induction entries with
  | nil => exact .inl (by simp_all [insertEntry])
  | cons first rest ih =>
      simp only [insertEntry] at member
      cases order : Path.compare path first.1 with
      | lt =>
          rw [order] at member
          rcases List.mem_cons.mp member with rfl | old
          · exact .inl rfl
          · exact .inr old
      | eq =>
          rw [order] at member
          exact .inr member
      | gt =>
          rw [order] at member
          rcases List.mem_cons.mp member with rfl | later
          · exact .inr List.mem_cons_self
          · exact (ih later).imp_right (List.mem_cons_of_mem first)

theorem insertEntry_rising {entries : List (Path × Span)} (path : Path) (span : Span)
    (rising : Rising entries) : Rising (insertEntry path span entries) := by
  induction entries with
  | nil => exact List.pairwise_singleton _ _
  | cons first rest ih =>
      obtain ⟨above, restRising⟩ := List.pairwise_cons.mp rising
      simp only [insertEntry]
      cases order : Path.compare path first.1 with
      | lt =>
          have before := Path.compare_lt_iff.mp order
          refine List.pairwise_cons.mpr ⟨fun entry member => ?_, rising⟩
          rcases List.mem_cons.mp member with rfl | later
          · exact before
          · exact List.lt_trans before (above entry later)
      | eq => exact rising
      | gt =>
          have behind := Path.compare_gt_iff.mp order
          refine List.pairwise_cons.mpr ⟨fun entry member => ?_, ih restRising⟩
          rcases mem_insertEntry member with same | old
          · exact same ▸ behind
          · exact above entry old

theorem classEntries_rising (elements : List TaggedElement) : Rising (classEntries elements) := by
  have fold (marked : List TaggedElement) (entries : List (Path × Span))
      (rising : Rising entries) :
      Rising (marked.foldl
        (fun entries element => insertEntry element.path element.span entries) entries) := by
    induction marked generalizing entries with
    | nil => exact rising
    | cons element rest ih => exact ih _ (insertEntry_rising element.path element.span rising)
  exact fold _ [] List.Pairwise.nil

/-- The marked classes come in the order of their addresses, and no address comes twice. -/
theorem taggedClasses_rising (program : Program) (elements : List TaggedElement) :
    (taggedClasses program elements).Pairwise fun left right => left.path < right.path := by
  refine List.Pairwise.filterMap _ ?_ (classEntries_rising elements)
  intro left right before first firstFound second secondFound
  simp only [Option.map_eq_some_iff] at firstFound secondFound
  obtain ⟨_, _, rfl⟩ := firstFound
  obtain ⟨_, _, rfl⟩ := secondFound
  exact before

theorem classAt?_of_mem_taggedClasses {program : Program} {elements : List TaggedElement}
    {entry : TaggedClass} (member : entry ∈ taggedClasses program elements) :
    program.classAt? entry.path = some entry.decl := by
  obtain ⟨place, _, found⟩ := List.mem_filterMap.mp member
  obtain ⟨decl, resolved, rfl⟩ := Option.map_eq_some_iff.mp found
  exact resolved

theorem taggedClasses_extend {program : Program} {added : Additions} (flat : added.Flat)
    (elements : List TaggedElement) :
    taggedClasses (program.extend added) elements =
      (taggedClasses program elements).map fun entry =>
        { entry with decl := entry.decl.extend (added.below entry.path) } := by
  unfold taggedClasses
  rw [List.map_filterMap]
  congr 1
  funext place
  rw [Program.classAt?_extend flat]
  cases program.classAt? place.1 <;> rfl

end Accessor

end DataClass
