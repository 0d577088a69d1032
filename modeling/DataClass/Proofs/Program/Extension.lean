import DataClass.Program.Path
namespace DataClass

/-! Programs with members added to their classes.

What is added is a function of the address: `added path` goes behind the members of the class at
`path`, for all classes at once. Adding members to one class after another comes to the same
(`updateBelow_append`, `extend_extend`), and no address changes its meaning (`classAt?_extend`).
-/

/-- Members to add, by the address of the class that gets them. -/
def Additions : Type := Path → List Member

namespace Additions

def none : Additions := fun _ => []

/-- Members for one class. -/
def single (path : Path) (members : List Member) : Additions :=
  fun other => if other = path then members else []

/-- The additions to the classes at and below an address. -/
def below (added : Additions) (path : Path) : Additions := fun rest => added (path ++ rest)

/-- The additions to all but the first of several declarations. -/
def behind (added : Additions) : Additions
  | [] => []
  | place :: rest => added ((place + 1) :: rest)

/-- Additions followed by others. -/
def followedBy (first second : Additions) : Additions := fun path => first path ++ second path

/-- No class is among the members to be added. -/
def Flat (added : Additions) : Prop := ∀ path, ∀ member ∈ added path, member.nested? = .none

@[simp] theorem below_none (path : Path) : none.below path = none := rfl

@[simp] theorem below_nil (added : Additions) : added.below [] = added := rfl

theorem below_below (added : Additions) (first second : Path) :
    (added.below first).below second = added.below (first ++ second) := by
  funext rest
  simp [Additions.below]

theorem below_followedBy (first second : Additions) (path : Path) :
    (first.followedBy second).below path = (first.below path).followedBy (second.below path) := rfl

theorem below_single_cons (index other : Nat) (path : Path) (members : List Member) :
    (single (index :: path) members).below [other] =
      if other = index then single path members else none := by
  funext rest
  by_cases same : other = index <;> simp [Additions.below, single, none, same]

theorem Flat.below {added : Additions} (flat : added.Flat) (path : Path) : (added.below path).Flat :=
  fun rest => flat (path ++ rest)

end Additions

mutual

/-- A member with the additions to its own classes. -/
def Member.extend (added : Additions) : Member → Member
  | .field span decl => .field span decl
  | .method span decl => .method span decl
  | .constructor span decl => .constructor span decl
  | .initializer span body => .initializer span body
  | .nested span decl => .nested span (decl.extend added)

/-- A class with the additions to it and to the classes inside. -/
def Class.extend (added : Additions) : Class → Class
  | ⟨tags, isPublic, name, members⟩ =>
      ⟨tags, isPublic, name, Member.extendFrom added 0 members ++ added []⟩

/-- Members from an index on, with the additions to their classes. -/
def Member.extendFrom (added : Additions) (index : Nat) : List Member → List Member
  | [] => []
  | member :: rest =>
      member.extend (added.below [index]) :: Member.extendFrom added (index + 1) rest

end

namespace Member

theorem extendFrom_append (added : Additions) (index : Nat) (left right : List Member) :
    extendFrom added index (left ++ right) =
      extendFrom added index left ++ extendFrom added (index + left.length) right := by
  induction left generalizing index with
  | nil => rfl
  | cons member rest ih =>
      simp only [List.cons_append, extendFrom, ih, List.length_cons]
      rw [Nat.add_assoc index 1, Nat.add_comm 1]

theorem getElem?_extendFrom (added : Additions) (index : Nat) (members : List Member) (at' : Nat) :
    (extendFrom added index members)[at']? =
      members[at']?.map (extend (added.below [index + at'])) := by
  induction members generalizing index at' with
  | nil => rfl
  | cons member rest ih =>
      cases at' with
      | zero => rfl
      | succ at' =>
          simp only [extendFrom, List.getElem?_cons_succ, ih]
          rw [Nat.add_assoc index 1, Nat.add_comm 1]

theorem length_extendFrom (added : Additions) (index : Nat) (members : List Member) :
    (extendFrom added index members).length = members.length := by
  induction members generalizing index with
  | nil => rfl
  | cons member rest ih => simp [extendFrom, ih]

@[simp] theorem extend_nested? (added : Additions) (member : Member) :
    (member.extend added).nested? = member.nested?.map (Class.extend added) := by
  cases member <;> simp [extend, nested?]

@[simp] theorem extend_method? (added : Additions) (member : Member) :
    (member.extend added).method? = member.method? := by
  cases member <;> simp [extend, method?]

end Member

namespace Class

@[simp] theorem extend_name (added : Additions) (decl : Class) :
    (decl.extend added).name = decl.name := by
  cases decl; rfl

theorem extend_members (added : Additions) (decl : Class) :
    (decl.extend added).members = Member.extendFrom added 0 decl.members ++ added [] := by
  cases decl; rfl

end Class

mutual

theorem Member.extend_none (member : Member) : member.extend .none = member := by
  cases member with
  | nested span decl => simp [Member.extend, Class.extend_none decl]
  | _ => simp [Member.extend]

theorem Class.extend_none (decl : Class) : decl.extend .none = decl := by
  cases decl with
  | mk tags isPublic name members =>
      simp [Class.extend, Member.extendFrom_none 0 members, Additions.none]

theorem Member.extendFrom_none (index : Nat) (members : List Member) :
    Member.extendFrom .none index members = members := by
  cases members with
  | nil => rfl
  | cons member rest =>
      simp [Member.extendFrom, Member.extend_none member, Member.extendFrom_none (index + 1) rest]

end

attribute [simp] Member.extend_none Class.extend_none Member.extendFrom_none

namespace Class

/-- Adding members to one class is an extension. Where no class is at the address, both leave
everything as it is. -/
theorem updateBelow_append (members : List Member) (path : Path) (decl : Class) :
    decl.updateBelow (Class.append members) path = decl.extend (.single path members) := by
  induction path generalizing decl with
  | nil =>
      have inside (index : Nat) (rest : List Member) :
          Member.extendFrom (.single [] members) index rest = rest := by
        induction rest generalizing index with
        | nil => rfl
        | cons member rest ih =>
            have untouched : (Additions.single [] members).below [index] = .none := by
              funext other
              simp [Additions.below, Additions.single, Additions.none]
            rw [Member.extendFrom, ih, untouched, Member.extend_none]
      cases decl
      simp [updateBelow, Class.append, Class.extend, inside, Additions.single]
  | cons index path ih =>
      cases decl with
      | mk tags isPublic name present =>
          simp only [updateBelow, Class.extend, Additions.single, reduceCtorEq, if_false,
            List.append_nil, Class.mk.injEq, true_and]
          apply List.ext_getElem?
          intro place
          rw [List.getElem?_modify, Member.getElem?_extendFrom, Nat.zero_add]
          rw [Additions.below_single_cons]
          by_cases here : index = place
          · subst here
            cases present[index]? with
            | none => rfl
            | some member => cases member <;> simp [Member.onNested, Member.extend, ih]
          · have there : place ≠ index := Ne.symm here
            cases present[place]? <;> simp [here, there]

/-- Additions that are meant for classes that are there: they say nothing about other addresses. -/
def Covers (decl : Class) (added : Additions) : Prop :=
  ∀ path, decl.descend? path = none → added path = []

theorem descend?_cons (decl : Class) (index : Nat) (path : Path) :
    decl.descend? (index :: path) =
      (decl.members[index]?.bind Member.nested?).bind (·.descend? path) := rfl

theorem Covers.untouched {decl : Class} {added : Additions} (covers : decl.Covers added)
    {index : Nat} (noClass : decl.members[index]?.bind Member.nested? = none) :
    added.below [index] = .none := by
  funext path
  exact covers (index :: path) (by simp [descend?_cons, noClass])

end Class

mutual

theorem Member.extend_extend (first second : Additions) (member : Member)
    (covers : ∀ decl, member.nested? = some decl → decl.Covers second) :
    (member.extend first).extend second = member.extend (first.followedBy second) := by
  cases member with
  | nested span decl =>
      simp only [Member.extend]
      rw [Class.extend_extend first second decl (covers decl rfl)]
  | _ => simp [Member.extend]

theorem Class.extend_extend (first second : Additions) (decl : Class)
    (covers : decl.Covers second) :
    (decl.extend first).extend second = decl.extend (first.followedBy second) := by
  cases decl with
  | mk tags isPublic name members =>
      have later (index : Nat) : second.below [members.length + index] = .none :=
        covers.untouched (by simp)
      have behind (index : Nat) (added : List Member) :
          Member.extendFrom second (members.length + index) added = added := by
        induction added generalizing index with
        | nil => rfl
        | cons member rest ih =>
            rw [Member.extendFrom, later, Member.extend_none, Nat.add_assoc, ih]
      have inside := Member.extendFrom_extendFrom first second 0 members (fun index decl found => by
        intro path missing
        rw [Nat.zero_add]
        exact covers (index :: path) (by simpa [Class.descend?_cons, found] using missing))
      have length : (Member.extendFrom first 0 members).length = members.length := by
        simp [Member.length_extendFrom]
      simp only [Class.extend, Member.extendFrom_append, inside, length, Nat.zero_add,
        Additions.followedBy, List.append_assoc]
      rw [← Nat.add_zero members.length, behind]

theorem Member.extendFrom_extendFrom (first second : Additions) (index : Nat)
    (members : List Member)
    (covers : ∀ place decl, members[place]?.bind Member.nested? = some decl →
      decl.Covers (second.below [index + place])) :
    Member.extendFrom second index (Member.extendFrom first index members) =
      Member.extendFrom (first.followedBy second) index members := by
  cases members with
  | nil => rfl
  | cons member rest =>
      have head := Member.extend_extend (first.below [index]) (second.below [index]) member
        (fun decl found => covers 0 decl (by simpa using found))
      have tail := Member.extendFrom_extendFrom first second (index + 1) rest
        (fun place decl found => by
          have here := covers (place + 1) decl (by simpa using found)
          rwa [Nat.add_comm place, ← Nat.add_assoc] at here)
      simp only [Member.extendFrom, head, tail, Additions.below_followedBy]

end

namespace Class

theorem descend?_extend_of_some {decl found : Class} {path : Path} (added : Additions)
    (reached : decl.descend? path = some found) :
    (decl.extend added).descend? path = some (found.extend (added.below path)) := by
  induction path generalizing decl added with
  | nil =>
      cases reached
      rfl
  | cons index path ih =>
      rw [descend?_cons, Option.bind_eq_some_iff] at reached
      obtain ⟨nested, held, deeper⟩ := reached
      obtain ⟨member, present, isClass⟩ := Option.bind_eq_some_iff.mp held
      have inRange := (List.getElem?_eq_some_iff.mp present).1
      have extended : (decl.extend added).members[index]? =
          some (member.extend (added.below [index])) := by
        rw [extend_members, List.getElem?_append_left (by simpa [Member.length_extendFrom]),
          Member.getElem?_extendFrom, present, Nat.zero_add]
        rfl
      rw [descend?_cons, extended, Option.bind_some, Member.extend_nested?, isClass]
      simpa [Additions.below_below] using ih (added.below [index]) deeper

theorem descend?_extend {decl : Class} {added : Additions} (flat : added.Flat) (path : Path) :
    (decl.extend added).descend? path =
      (decl.descend? path).map (Class.extend (added.below path)) := by
  cases reached : decl.descend? path with
  | some found => exact descend?_extend_of_some added reached
  | none =>
      induction path generalizing decl added with
      | nil => cases reached
      | cons index path ih =>
          rw [descend?_cons] at reached
          rw [descend?_cons, extend_members, List.getElem?_append,
            Member.getElem?_extendFrom, Nat.zero_add]
          cases present : decl.members[index]? with
          | none =>
              have outside : ¬ index < (Member.extendFrom added 0 decl.members).length := by
                simpa [Member.length_extendFrom] using present
              rw [if_neg outside]
              cases new : (added [])[index - (Member.extendFrom added 0 decl.members).length]? with
              | none => rfl
              | some member => simp [flat [] member (List.mem_of_getElem? new)]
          | some member =>
              have inside : index < (Member.extendFrom added 0 decl.members).length := by
                simpa [Member.length_extendFrom] using (List.getElem?_eq_some_iff.mp present).1
              rw [if_pos inside]
              cases isClass : member.nested? with
              | none => simp [isClass]
              | some nested =>
                  have missing : nested.descend? path = none := by
                    simpa [present, isClass] using reached
                  simpa [isClass] using ih (flat.below [index]) missing

theorem fieldsFrom_append (index : Nat) (left right : List Member) :
    fieldsFrom index (left ++ right) =
      fieldsFrom index left ++ fieldsFrom (index + left.length) right := by
  induction left generalizing index with
  | nil => rfl
  | cons member rest ih =>
      have next : index + (rest.length + 1) = index + 1 + rest.length := by omega
      cases member <;> simp [fieldsFrom, ih, next]

theorem fieldsFrom_extendFrom (added : Additions) (index start : Nat) (members : List Member) :
    fieldsFrom start (Member.extendFrom added index members) = fieldsFrom start members := by
  induction members generalizing index start with
  | nil => rfl
  | cons member rest ih => cases member <;> simp [Member.extendFrom, Member.extend, fieldsFrom, ih]

/-- Where no fields are added, the fields and their places are the same as before. -/
theorem fields_extend {decl : Class} {added : Additions}
    (noFields : ∀ member ∈ added [], member.isField = false) :
    (decl.extend added).fields = decl.fields := by
  have behind (index : Nat) (members : List Member)
      (plain : ∀ member ∈ members, member.isField = false) : fieldsFrom index members = [] := by
    induction members generalizing index with
    | nil => rfl
    | cons member rest ih =>
        have first := plain member List.mem_cons_self
        have others := ih (index + 1) (fun member inside => plain member (List.mem_cons_of_mem _ inside))
        cases member <;> simp_all [fieldsFrom, Member.isField]
  rw [fields, extend_members, fieldsFrom_append, fieldsFrom_extendFrom, behind _ _ noFields,
    List.append_nil, fields]

theorem methods_extend (decl : Class) (added : Additions) :
    (decl.extend added).methods = decl.methods ++ (added []).filterMap Member.method? := by
  have inside (index : Nat) (members : List Member) :
      (Member.extendFrom added index members).filterMap Member.method? =
        members.filterMap Member.method? := by
    induction members generalizing index with
    | nil => rfl
    | cons member rest ih => simp [Member.extendFrom, List.filterMap_cons, ih]
  rw [methods, extend_members, List.filterMap_append, inside, methods]

end Class

namespace Program

/-- A program with the additions to its classes. -/
def extend (added : Additions) (program : Program) : Program :=
  ⟨program.declarations.mapIdx fun index => Declaration.onClass (Class.extend (added.below [index]))⟩

/-- Additions that are meant for classes that are there: they say nothing about other addresses. -/
def Covers (program : Program) (added : Additions) : Prop :=
  ∀ path, program.classAt? path = none → added path = []

theorem classAt?_cons (program : Program) (index : Nat) (path : Path) :
    program.classAt? (index :: path) =
      (program.declarations[index]?.bind Declaration.class?).bind (·.descend? path) := rfl

theorem Covers.class {program : Program} {added : Additions} (covers : program.Covers added)
    {index : Nat} {decl : Class}
    (found : program.declarations[index]?.bind Declaration.class? = some decl) :
    decl.Covers (added.below [index]) := by
  intro path missing
  exact covers (index :: path) (by simpa [classAt?_cons, found] using missing)

@[simp] theorem extend_none (program : Program) : program.extend .none = program := by
  have same : Declaration.onClass (Class.extend .none) = id := by
    funext declaration
    cases declaration <;> simp [Declaration.onClass]
  cases program
  simp [extend, same, List.mapIdx_eq_iff]

theorem updateAt_append (members : List Member) {path : Path} (program : Program)
    (place : path ≠ []) :
    program.updateAt (Class.append members) path = program.extend (.single path members) := by
  cases path with
  | nil => exact absurd rfl place
  | cons index path =>
      simp only [updateAt, extend, Program.mk.injEq]
      apply List.ext_getElem?
      intro other
      rw [List.getElem?_modify, List.getElem?_mapIdx, Additions.below_single_cons]
      by_cases here : index = other
      · subst here
        cases program.declarations[index]? with
        | none => rfl
        | some declaration =>
            cases declaration <;> simp [Declaration.onClass, Class.updateBelow_append]
      · have there : other ≠ index := Ne.symm here
        cases program.declarations[other]? with
        | none => rfl
        | some declaration => cases declaration <;> simp [Declaration.onClass, here, there]

theorem extend_extend {program : Program} (first second : Additions)
    (covers : program.Covers second) :
    (program.extend first).extend second = program.extend (first.followedBy second) := by
  simp only [extend, List.mapIdx_mapIdx, Program.mk.injEq]
  apply List.ext_getElem?
  intro index
  rw [List.getElem?_mapIdx, List.getElem?_mapIdx]
  cases held : program.declarations[index]? with
  | none => rfl
  | some declaration =>
      cases declaration with
      | type span decl =>
          have here : decl.Covers (second.below [index]) := covers.class (by simp [held, Declaration.class?])
          simp [Declaration.onClass, Class.extend_extend _ _ decl here, Additions.below_followedBy]
      | _ => simp [Declaration.onClass]

theorem declaration_extend (program : Program) (added : Additions) (index : Nat) :
    (program.extend added).declarations[index]?.bind Declaration.class? =
      (program.declarations[index]?.bind Declaration.class?).map
        (Class.extend (added.below [index])) := by
  rw [extend, List.getElem?_mapIdx]
  cases program.declarations[index]? with
  | none => rfl
  | some declaration => cases declaration <;> rfl

theorem classAt?_extend_of_some {program : Program} {found : Class} {path : Path}
    (added : Additions) (reached : program.classAt? path = some found) :
    (program.extend added).classAt? path = some (found.extend (added.below path)) := by
  cases path with
  | nil => cases reached
  | cons index path =>
      obtain ⟨decl, held, deeper⟩ := Option.bind_eq_some_iff.mp reached
      rw [classAt?_cons, declaration_extend, held]
      simpa [Additions.below_below] using Class.descend?_extend_of_some (added.below [index]) deeper

/-- Where only members without classes are added, the addresses of classes are the same as before. -/
theorem classAt?_extend {program : Program} {added : Additions} (flat : added.Flat) (path : Path) :
    (program.extend added).classAt? path =
      (program.classAt? path).map (Class.extend (added.below path)) := by
  cases path with
  | nil => rfl
  | cons index path =>
      rw [classAt?_cons, declaration_extend, classAt?_cons]
      cases program.declarations[index]?.bind Declaration.class? with
      | none => rfl
      | some decl =>
          simpa [Additions.below_below] using Class.descend?_extend (flat.below [index]) path

end Program

end DataClass
