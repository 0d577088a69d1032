import DataClass.Proofs.Program.Extension
import Mathlib.Algebra.BigOperators.Group.Finset.Piecewise
import Mathlib.Algebra.Order.Ring.Nat
namespace DataClass

/-! All classes of a program, at any depth, each with its address. An address is that of one class, and
every class that can be reached is among them. -/

mutual

/-- The class at an address and the classes inside of it, in source order. -/
def Class.addressed (path : Path) : Class → List (Path × Class)
  | ⟨tags, isPublic, name, members⟩ =>
      (path, ⟨tags, isPublic, name, members⟩) :: Member.addressedFrom path 0 members

def Member.addressed (path : Path) : Member → List (Path × Class)
  | .nested _ decl => decl.addressed path
  | .field _ _ | .method _ _ | .constructor _ _ | .initializer _ _ => []

/-- The classes among members, counted from `index`, of the class at an address. -/
def Member.addressedFrom (path : Path) (index : Nat) : List Member → List (Path × Class)
  | [] => []
  | member :: rest =>
      member.addressed (path ++ [index]) ++ Member.addressedFrom path (index + 1) rest

end

/-- A declaration as if it were a member of a class around the whole program. What is not a class holds
none either. -/
def Declaration.asMember : Declaration → Member
  | .type span decl => .nested span decl
  | .function span decl => .method span decl
  | .importPath span _ => .initializer span []

namespace Program

/-- All classes of a program with their addresses, in source order. -/
def addressed (program : Program) : List (Path × Class) :=
  Member.addressedFrom [] 0 (program.declarations.map Declaration.asMember)

/-- The number of members of all classes together. -/
def memberTotal (program : Program) : Nat :=
  (program.addressed.map fun entry => entry.2.members.length).sum

end Program

/-! ### Every class is listed once -/

mutual

theorem Class.mem_addressed {path place : Path} {found : Class} : (decl : Class) →
    ((place, found) ∈ decl.addressed path ↔
      ∃ below, place = path ++ below ∧ decl.descend? below = some found)
  | ⟨tags, isPublic, name, members⟩ => by
      rw [Class.addressed, List.mem_cons, Member.mem_addressedFrom members]
      constructor
      · rintro (here | ⟨offset, nested, held, below, rfl, reached⟩)
        · obtain ⟨rfl, rfl⟩ := Prod.mk.inj here
          exact ⟨[], (List.append_nil _).symm, rfl⟩
        · refine ⟨offset :: below, by rw [Nat.zero_add], ?_⟩
          rw [Class.descend?_cons, held]
          exact reached
      · rintro ⟨below, rfl, reached⟩
        cases below with
        | nil =>
            obtain rfl := Option.some.inj reached
            exact .inl (by rw [List.append_nil])
        | cons offset below =>
            obtain ⟨nested, held, deeper⟩ := Option.bind_eq_some_iff.mp reached
            exact .inr ⟨offset, nested, held, below, by rw [Nat.zero_add], deeper⟩

theorem Member.mem_addressed {path place : Path} {found : Class} : (member : Member) →
    ((place, found) ∈ member.addressed path ↔
      ∃ nested, member.nested? = some nested ∧
        ∃ below, place = path ++ below ∧ nested.descend? below = some found)
  | .nested span decl => by simp [Member.addressed, Member.nested?, Class.mem_addressed decl]
  | .field _ _ | .method _ _ | .constructor _ _ | .initializer _ _ => by
      simp [Member.addressed, Member.nested?]

theorem Member.mem_addressedFrom {path place : Path} {index : Nat} {found : Class} :
    (members : List Member) →
    ((place, found) ∈ Member.addressedFrom path index members ↔
      ∃ offset nested, members[offset]?.bind Member.nested? = some nested ∧
        ∃ below, place = path ++ (index + offset) :: below ∧ nested.descend? below = some found)
  | [] => by simp [Member.addressedFrom]
  | member :: rest => by
      rw [Member.addressedFrom, List.mem_append, Member.mem_addressed member,
        Member.mem_addressedFrom rest]
      constructor
      · rintro (⟨nested, held, below, rfl, reached⟩ | ⟨offset, nested, held, below, rfl, reached⟩)
        · exact ⟨0, nested, held, below, by simp, reached⟩
        · exact ⟨offset + 1, nested, held, below, by rw [Nat.add_right_comm, Nat.add_assoc], reached⟩
      · rintro ⟨offset, nested, held, below, rfl, reached⟩
        cases offset with
        | zero => exact .inl ⟨nested, held, below, by simp, reached⟩
        | succ offset =>
            exact .inr ⟨offset, nested, held, below, by rw [Nat.add_right_comm, Nat.add_assoc], reached⟩

end

mutual

theorem Class.addressed_nodup (path : Path) : (decl : Class) →
    ((decl.addressed path).map (·.1)).Nodup
  | ⟨tags, isPublic, name, members⟩ => by
      rw [Class.addressed, List.map_cons, List.nodup_cons]
      refine ⟨fun inside => ?_, Member.addressedFrom_nodup path 0 members⟩
      obtain ⟨⟨place, found⟩, listed, same⟩ := List.mem_map.mp inside
      obtain ⟨offset, _, _, below, rfl, _⟩ := (Member.mem_addressedFrom members).mp listed
      simp at same

theorem Member.addressed_nodup (path : Path) : (member : Member) →
    ((member.addressed path).map (·.1)).Nodup
  | .nested _ decl => by
      rw [Member.addressed]
      exact Class.addressed_nodup path decl
  | .field _ _ | .method _ _ | .constructor _ _ | .initializer _ _ => by
      rw [Member.addressed]
      exact List.nodup_nil

theorem Member.addressedFrom_nodup (path : Path) (index : Nat) : (members : List Member) →
    ((Member.addressedFrom path index members).map (·.1)).Nodup
  | [] => List.nodup_nil
  | member :: rest => by
      rw [Member.addressedFrom, List.map_append]
      refine List.nodup_append.mpr ⟨Member.addressed_nodup (path ++ [index]) member,
        Member.addressedFrom_nodup path (index + 1) rest, fun first here second later => ?_⟩
      -- The index behind `path` tells a class of this member from one of a later member.
      obtain ⟨⟨_, _⟩, listed, rfl⟩ := List.mem_map.mp here
      obtain ⟨⟨_, _⟩, behind, rfl⟩ := List.mem_map.mp later
      obtain ⟨_, _, below, rfl, _⟩ := (Member.mem_addressed member).mp listed
      obtain ⟨offset, _, _, other, rfl, _⟩ := (Member.mem_addressedFrom rest).mp behind
      simp
      omega

end

theorem Declaration.nested?_asMember (declaration : Declaration) :
    declaration.asMember.nested? = declaration.class? := by
  cases declaration <;> rfl

namespace Program

theorem mem_addressed {program : Program} {path : Path} {decl : Class} :
    (path, decl) ∈ program.addressed ↔ program.classAt? path = some decl := by
  have classes (index : Nat) :
      (program.declarations.map Declaration.asMember)[index]?.bind Member.nested? =
        program.declarations[index]?.bind Declaration.class? := by
    rw [List.getElem?_map, Option.bind_map]
    congr 1
    exact funext Declaration.nested?_asMember
  rw [addressed, Member.mem_addressedFrom]
  simp only [classes, Nat.zero_add, List.nil_append]
  cases path with
  | nil => simp [classAt?]
  | cons index below =>
      rw [classAt?_cons, Option.bind_eq_some_iff]
      simp only [List.cons.injEq]
      constructor
      · rintro ⟨_, outer, held, _, ⟨rfl, rfl⟩, reached⟩
        exact ⟨outer, held, reached⟩
      · rintro ⟨outer, held, reached⟩
        exact ⟨index, outer, held, below, ⟨rfl, rfl⟩, reached⟩

theorem addressed_nodup (program : Program) : (program.addressed.map (·.1)).Nodup :=
  Member.addressedFrom_nodup [] 0 _

end Program

/-! ### Members that are added -/

theorem Member.addressedFrom_append (path : Path) (index : Nat) (left right : List Member) :
    Member.addressedFrom path index (left ++ right) =
      Member.addressedFrom path index left ++
        Member.addressedFrom path (index + left.length) right := by
  induction left generalizing index with
  | nil => rfl
  | cons member rest ih =>
      simp only [List.cons_append, Member.addressedFrom, ih, List.append_assoc, List.length_cons]
      rw [Nat.add_assoc index 1, Nat.add_comm 1]

theorem Member.addressedFrom_of_flat {members : List Member}
    (flat : ∀ member ∈ members, member.nested? = none) (path : Path) (index : Nat) :
    Member.addressedFrom path index members = [] := by
  apply List.eq_nil_iff_forall_not_mem.mpr
  rintro ⟨place, found⟩ listed
  obtain ⟨offset, nested, held, _⟩ := (Member.mem_addressedFrom members).mp listed
  obtain ⟨member, inside, isClass⟩ := Option.bind_eq_some_iff.mp held
  rw [flat member (List.mem_of_getElem? inside)] at isClass
  cases isClass

/-- A listed class with what is added to it and to the classes inside. -/
def extendAt (added : Additions) (entry : Path × Class) : Path × Class :=
  (entry.1, entry.2.extend (added.below entry.1))

mutual

theorem Class.addressed_extend {added : Additions} (flat : added.Flat) (path : Path) :
    (decl : Class) →
    (decl.extend (added.below path)).addressed path = (decl.addressed path).map (extendAt added)
  | ⟨tags, isPublic, name, members⟩ => by
      have inside := Member.addressedFrom_extendFrom flat path 0 members
      have behind := Member.addressedFrom_of_flat (flat.below path []) path members.length
      simp [Class.extend, Class.addressed, Member.addressedFrom_append, Member.length_extendFrom,
        inside, behind, extendAt]

theorem Member.addressed_extend {added : Additions} (flat : added.Flat) (path : Path) :
    (member : Member) →
    (member.extend (added.below path)).addressed path =
      (member.addressed path).map (extendAt added)
  | .nested _ decl => by
      rw [Member.extend, Member.addressed, Member.addressed]
      exact Class.addressed_extend flat path decl
  | .field _ _ | .method _ _ | .constructor _ _ | .initializer _ _ => by
      simp [Member.extend, Member.addressed]

theorem Member.addressedFrom_extendFrom {added : Additions} (flat : added.Flat) (path : Path)
    (index : Nat) : (members : List Member) →
    Member.addressedFrom path index (Member.extendFrom (added.below path) index members) =
      (Member.addressedFrom path index members).map (extendAt added)
  | [] => rfl
  | member :: rest => by
      rw [Member.extendFrom, Member.addressedFrom, Member.addressedFrom, List.map_append,
        Additions.below_below, Member.addressed_extend flat (path ++ [index]) member,
        Member.addressedFrom_extendFrom flat path (index + 1) rest]

end

theorem Class.length_members_extend (added : Additions) (decl : Class) :
    (decl.extend added).members.length = decl.members.length + (added []).length := by
  rw [Class.extend_members, List.length_append, Member.length_extendFrom]

namespace Program

theorem map_asMember_extend (added : Additions) (program : Program) :
    (program.extend added).declarations.map Declaration.asMember =
      Member.extendFrom added 0 (program.declarations.map Declaration.asMember) := by
  apply List.ext_getElem?
  intro index
  rw [Member.getElem?_extendFrom, List.getElem?_map, List.getElem?_map, extend, List.getElem?_mapIdx]
  cases program.declarations[index]? with
  | none => rfl
  | some declaration =>
      cases declaration <;> simp [Declaration.onClass, Declaration.asMember, Member.extend]

theorem addressed_extend {added : Additions} (flat : added.Flat) (program : Program) :
    (program.extend added).addressed = program.addressed.map (extendAt added) := by
  rw [addressed, map_asMember_extend]
  exact Member.addressedFrom_extendFrom flat [] 0 _

/-- Every class grows by what is added at its address. -/
theorem memberTotal_extend {added : Additions} (flat : added.Flat) (program : Program) :
    (program.extend added).memberTotal =
      program.memberTotal + (program.addressed.map fun entry => (added entry.1).length).sum := by
  rw [memberTotal, memberTotal, addressed_extend flat, List.map_map, ← List.sum_map_add]
  simp [Function.comp_def, extendAt, Class.length_members_extend, Additions.below]

theorem memberTotal_extend_single {program : Program} {path : Path} {decl : Class}
    {members : List Member} (reached : program.classAt? path = some decl)
    (flat : ∀ member ∈ members, member.nested? = none) :
    (program.extend (.single path members)).memberTotal = program.memberTotal + members.length := by
  have single : (Additions.single path members).Flat := by
    intro other member inside
    rw [Additions.single] at inside
    split at inside
    · exact flat member inside
    · cases inside
  have sizes (other : Path) : List.length (Additions.single path members other) =
      if other = path then members.length else 0 := by
    rw [Additions.single]
    split <;> rfl
  have listed : path ∈ (program.addressed.map (·.1)).toFinset :=
    List.mem_toFinset.mpr (List.mem_map_of_mem (f := (·.1)) (mem_addressed.mpr reached))
  have sum : (program.addressed.map fun entry => if entry.1 = path then members.length else 0).sum =
      members.length := by
    calc (program.addressed.map fun entry => if entry.1 = path then members.length else 0).sum
      _ = ∑ other ∈ (program.addressed.map (·.1)).toFinset,
            if other = path then members.length else 0 := by
        rw [List.sum_toFinset _ program.addressed_nodup, List.map_map, Function.comp_def]
      _ = members.length := by rw [Finset.sum_ite_eq', if_pos listed]
  simp only [memberTotal_extend single, sizes, sum]

end Program

end DataClass
