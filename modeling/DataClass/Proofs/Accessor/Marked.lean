import DataClass.Proofs.Accessor.Entries
import DataClass.Proofs.Program.Lookup
namespace DataClass.Accessor

/-! The marked classes of a program that has been written and read back. -/

namespace TaggedElement

def unplaced (element : TaggedElement) : TaggedElement := { element with span := .origin }

end TaggedElement

theorem isOn_erase (marker : Marker) (tags : List Tag) :
    marker.isOn (tags.map Tag.erase) = marker.isOn tags := by
  have same : marker.isMark ∘ Tag.erase = marker.isMark := by
    funext tag
    cases tag
    rfl
  rw [Marker.isOn, Marker.isOn, List.any_map, same]

theorem taggedIf_erase (marker : Marker) (tags : List Tag) (element : TaggedElement) :
    taggedIf marker (tags.map Tag.erase) element.unplaced =
      (taggedIf marker tags element).map TaggedElement.unplaced := by
  rw [taggedIf, taggedIf, isOn_erase]
  split <;> rfl

mutual

theorem taggedInMember_spelled (marker : Marker) (path : Path) : (member : Member) →
    taggedInMember marker path member.spelled =
      (taggedInMember marker path member).map TaggedElement.unplaced
  | .field span decl => by
      rw [Member.spelled, taggedInMember, taggedInMember, ← taggedIf_erase]
      rfl
  | .method span decl => by
      rw [Member.spelled, taggedInMember, taggedInMember, ← taggedIf_erase]
      rfl
  | .constructor span decl => by
      rw [Member.spelled, taggedInMember, taggedInMember, ← taggedIf_erase]
      rfl
  | .initializer span body => by
      rw [Member.spelled, taggedInMember, taggedInMember, List.map_nil]
  | .nested span decl => by
      rw [Member.spelled, taggedInMember, taggedInMember, taggedInClass_spelled marker path span decl]

theorem taggedInClass_spelled (marker : Marker) (path : Path) (span : Span) : (decl : Class) →
    taggedInClass marker path .origin decl.spelled =
      (taggedInClass marker path span decl).map TaggedElement.unplaced
  | ⟨tags, isPublic, name, members⟩ => by
      rw [Class.spelled, taggedInClass, taggedInClass, List.map_append, ← taggedIf_erase,
        taggedMembersFrom_spelled marker path 0 members]
      rfl

theorem taggedMembersFrom_spelled (marker : Marker) (path : Path) (index : Nat) :
    (members : List Member) →
    taggedMembersFrom marker path index (Member.spelledAll members) =
      (taggedMembersFrom marker path index members).map TaggedElement.unplaced
  | [] => by
      rw [Member.spelledAll, taggedMembersFrom, List.map_nil]
  | member :: rest => by
      rw [Member.spelledAll, taggedMembersFrom, taggedMembersFrom, List.map_append,
        taggedInMember_spelled marker (path ++ [index]) member,
        taggedMembersFrom_spelled marker path (index + 1) rest]

end

theorem tagged_spelled (marker : Marker) (program : Program) :
    tagged marker program.spelled = (tagged marker program).map TaggedElement.unplaced := by
  have from_ (index : Nat) (declarations : List Declaration) :
      taggedDeclarationsFrom marker index (declarations.map Declaration.spelled) =
        (taggedDeclarationsFrom marker index declarations).map TaggedElement.unplaced := by
    induction declarations generalizing index with
    | nil => rfl
    | cons declaration rest ih =>
        have here : taggedInDeclaration marker [index] declaration.spelled =
            (taggedInDeclaration marker [index] declaration).map TaggedElement.unplaced := by
          cases declaration with
          | importPath span path => rfl
          | type span decl => exact taggedInClass_spelled marker [index] span decl
          | function span decl =>
              exact taggedIf_erase marker decl.tags ⟨[index], .function, decl.name, span⟩
        rw [List.map_cons, taggedDeclarationsFrom, taggedDeclarationsFrom, List.map_append, here, ih]
  exact from_ 0 program.declarations

theorem mem_map_insertEntry {path other : Path} {span : Span} {entries : List (Path × Span)} :
    other ∈ (insertEntry path span entries).map (·.1) ↔
      other = path ∨ other ∈ entries.map (·.1) := by
  induction entries with
  | nil => simp [insertEntry]
  | cons entry rest ih =>
      simp only [insertEntry]
      cases order : Path.compare path entry.1 with
      | lt => simp
      | eq =>
          have same := Path.compare_eq_iff.mp order
          simp [same]
      | gt =>
          simp only [List.map_cons, List.mem_cons, ih]
          exact or_left_comm

theorem mem_map_classEntries {elements : List TaggedElement} {path : Path} :
    path ∈ (classEntries elements).map (·.1) ↔
      ∃ element ∈ elements, element.kind = .type ∧ element.path = path := by
  have fold (marked : List TaggedElement) (entries : List (Path × Span)) :
      path ∈ (marked.foldl
        (fun entries element => insertEntry element.path element.span entries) entries).map (·.1) ↔
        path ∈ entries.map (·.1) ∨ ∃ element ∈ marked, element.path = path := by
    induction marked generalizing entries with
    | nil => simp
    | cons element rest ih =>
        rw [List.foldl_cons, ih, mem_map_insertEntry]
        simp only [List.mem_cons, exists_eq_or_imp, eq_comm (a := path), or_assoc]
        exact or_left_comm
  rw [classEntries, fold]
  simp [and_assoc]

/-- The classes that are processed: those at an address that is marked as a class. -/
theorem exists_taggedClass {program : Program} {elements : List TaggedElement} {path : Path}
    {decl : Class} :
    (∃ entry ∈ taggedClasses program elements, entry.path = path ∧ entry.decl = decl) ↔
      (∃ element ∈ elements, element.kind = .type ∧ element.path = path) ∧
        program.classAt? path = some decl := by
  simp only [← mem_map_classEntries, taggedClasses, List.mem_filterMap, List.mem_map,
    Option.map_eq_some_iff]
  constructor
  · rintro ⟨_, ⟨place, inside, decl, reached, rfl⟩, rfl, rfl⟩
    exact ⟨⟨place, inside, rfl⟩, reached⟩
  · rintro ⟨⟨place, inside, rfl⟩, reached⟩
    exact ⟨_, ⟨place, inside, decl, reached, rfl⟩, rfl, rfl⟩

/-- The classes that a program marks for accessors. -/
def IsMarked (marker : Marker) (program : Program) (decl : Class) : Prop :=
  ∃ entry ∈ taggedClasses program (tagged marker program), entry.decl = decl

theorem isMarked_iff {marker : Marker} {program : Program} {decl : Class} :
    IsMarked marker program decl ↔
      ∃ path, (∃ element ∈ tagged marker program, element.kind = .type ∧ element.path = path) ∧
        program.classAt? path = some decl := by
  simp only [← exists_taggedClass, IsMarked]
  constructor
  · rintro ⟨entry, inside, same⟩
    exact ⟨entry.path, entry, inside, rfl, same⟩
  · rintro ⟨path, entry, inside, _, same⟩
    exact ⟨entry, inside, same⟩

variable {marker : Marker} {program again : Program}

theorem exists_type_spelled {path : Path} :
    (∃ element ∈ tagged marker program.spelled, element.kind = .type ∧ element.path = path) ↔
      ∃ element ∈ tagged marker program, element.kind = .type ∧ element.path = path := by
  rw [tagged_spelled]
  constructor
  · rintro ⟨_, inside, kind, place⟩
    obtain ⟨element, held, rfl⟩ := List.mem_map.mp inside
    exact ⟨element, held, kind, place⟩
  · rintro ⟨element, held, kind, place⟩
    exact ⟨element.unplaced, List.mem_map_of_mem held, kind, place⟩

theorem spelled_reread (same : again.erase = program.spelled.erase) :
    again.spelled = program.spelled.spelled := by
  rw [← again.spelled_erase, same, program.spelled.spelled_erase]

theorem exists_type_of_erase (same : again.erase = program.spelled.erase) {path : Path} :
    (∃ element ∈ tagged marker again, element.kind = .type ∧ element.path = path) ↔
      ∃ element ∈ tagged marker program, element.kind = .type ∧ element.path = path := by
  calc (∃ element ∈ tagged marker again, element.kind = .type ∧ element.path = path)
    _ ↔ ∃ element ∈ tagged marker again.spelled, element.kind = .type ∧ element.path = path :=
      exists_type_spelled.symm
    _ ↔ ∃ element ∈ tagged marker program, element.kind = .type ∧ element.path = path := by
      rw [spelled_reread same, exists_type_spelled, exists_type_spelled]

theorem tagged_of_erase (same : again.erase = program.spelled.erase)
    (none : tagged marker program = []) : tagged marker again = [] := by
  have nothing : (tagged marker again).map TaggedElement.unplaced = [] := by
    rw [← tagged_spelled, spelled_reread same, tagged_spelled, tagged_spelled, none]
    rfl
  exact List.map_eq_nil_iff.mp nothing

/-- The classes that are marked in what is read back are those that were marked before. -/
theorem isMarked_of_erase (same : again.erase = program.spelled.erase) :
    (∀ decl, IsMarked marker again decl →
      ∃ old, IsMarked marker program old ∧ decl.erase = old.spelled.erase) ∧
    (∀ old, IsMarked marker program old →
      ∃ decl, IsMarked marker again decl ∧ decl.erase = old.spelled.erase) := by
  have classes (path : Path) : (again.classAt? path).map Class.erase =
      ((program.classAt? path).map Class.spelled).map Class.erase := by
    rw [← Program.classAt?_erase, same, Program.classAt?_erase, Program.classAt?_spelled]
  constructor
  · intro decl marked
    obtain ⟨path, found, reached⟩ := isMarked_iff.mp marked
    have there := classes path
    rw [reached] at there
    cases before : program.classAt? path with
    | none => simp [before] at there
    | some old =>
        refine ⟨old, isMarked_iff.mpr ⟨path, (exists_type_of_erase same).mp found, before⟩, ?_⟩
        simpa [before] using there
  · intro old marked
    obtain ⟨path, found, reached⟩ := isMarked_iff.mp marked
    have there := classes path
    rw [reached] at there
    cases after : again.classAt? path with
    | none => simp [after] at there
    | some decl =>
        refine ⟨decl, isMarked_iff.mpr ⟨path, (exists_type_of_erase same).mpr found, after⟩, ?_⟩
        simpa [after] using there

end DataClass.Accessor
