import DataClass.Proofs.Accessor.Rounds
import Mathlib.Algebra.BigOperators.Group.Finset.Piecewise
import Mathlib.Algebra.Order.Ring.Nat
namespace DataClass

/-! What edits do to a program, whatever their addresses and members are. An edit may be for a class
inside of another edited class, or even for one that an earlier edit has added. Still the program is only
extended (`exists_extend_extend`), and edits for classes that were there from the start can change places
as long as those for one class stay in order. -/

/-! ### Extensions of extensions -/

theorem Member.extendFrom_congr {first second : Additions} {start : Nat} (members : List Member)
    (same : ∀ index, start ≤ index → first.below [index] = second.below [index]) :
    Member.extendFrom first start members = Member.extendFrom second start members := by
  induction members generalizing start with
  | nil => rfl
  | cons member rest ih =>
      rw [Member.extendFrom, Member.extendFrom, same start (Nat.le_refl _),
        ih fun index behind => same index (Nat.le_of_succ_le behind)]

mutual

theorem Member.exists_extend_extend (first second : Additions) : (member : Member) →
    ∃ both, (member.extend first).extend second = member.extend both
  | .nested span decl => by
      obtain ⟨both, same⟩ := Class.exists_extend_extend first second decl
      exact ⟨both, by rw [Member.extend, Member.extend, Member.extend, same]⟩
  | .field _ _ | .method _ _ | .constructor _ _ | .initializer _ _ => ⟨.none, rfl⟩

/-- What is added to a class of an extended program can be added from the start: later members of an
added class are added with it. -/
theorem Class.exists_extend_extend (first second : Additions) : (decl : Class) →
    ∃ both, (decl.extend first).extend second = decl.extend both
  | ⟨tags, isPublic, name, members⟩ => by
      obtain ⟨inside, same⟩ := Member.exists_extendFrom_extendFrom first second 0 members
      let own := Member.extendFrom second members.length (first []) ++ second []
      let both : Additions
        | [] => own
        | index :: rest => inside (index :: rest)
      have within : Member.extendFrom both 0 members = Member.extendFrom inside 0 members :=
        Member.extendFrom_congr members fun _ _ => rfl
      refine ⟨both, ?_⟩
      rw [Class.extend, Class.extend, Class.extend, Member.extendFrom_append, same, within,
        Member.length_extendFrom, Nat.zero_add, List.append_assoc]

theorem Member.exists_extendFrom_extendFrom (first second : Additions) (start : Nat) :
    (members : List Member) →
    ∃ both, Member.extendFrom second start (Member.extendFrom first start members) =
      Member.extendFrom both start members
  | [] => ⟨.none, rfl⟩
  | member :: rest => by
      obtain ⟨here, head⟩ :=
        Member.exists_extend_extend (first.below [start]) (second.below [start]) member
      obtain ⟨later, tail⟩ := Member.exists_extendFrom_extendFrom first second (start + 1) rest
      let both : Additions
        | [] => []
        | index :: path => if index = start then here path else later (index :: path)
      have own : both.below [start] = here := funext fun path => if_pos rfl
      have others : Member.extendFrom both (start + 1) rest = Member.extendFrom later (start + 1) rest :=
        Member.extendFrom_congr rest fun index behind =>
          funext fun path => if_neg (Nat.ne_of_gt behind)
      refine ⟨both, ?_⟩
      rw [Member.extendFrom, Member.extendFrom, Member.extendFrom, head, tail, own, others]

end

theorem Program.exists_extend_extend (first second : Additions) (program : Program) :
    ∃ both, (program.extend first).extend second = program.extend both := by
  have each (index : Nat) (declaration : Declaration) : ∃ both : Additions,
      Declaration.onClass (Class.extend (second.below [index]))
          (Declaration.onClass (Class.extend (first.below [index])) declaration) =
        Declaration.onClass (Class.extend both) declaration := by
    cases declaration with
    | type span decl =>
        obtain ⟨both, same⟩ := Class.exists_extend_extend (first.below [index]) (second.below [index]) decl
        exact ⟨both, by simp only [Declaration.onClass, same]⟩
    | _ => exact ⟨.none, rfl⟩
  choose both same using each
  let all : Additions
    | [] => []
    | index :: path => (program.declarations[index]?.map fun there => both index there path).getD []
  refine ⟨all, ?_⟩
  simp only [Program.extend, List.mapIdx_mapIdx, Program.mk.injEq]
  apply List.ext_getElem?
  intro index
  rw [List.getElem?_mapIdx, List.getElem?_mapIdx]
  cases held : program.declarations[index]? with
  | none => rfl
  | some declaration =>
      have own : all.below [index] = both index declaration := by
        funext path
        simp [all, Additions.below, held]
      simp [own, same]

/-- A class that was only added to: members in it and inside of it, each behind those that were there. -/
structure Class.Extended (added : Additions) (before after : Class) : Prop where
  tags : after.tags = before.tags
  isPublic : after.isPublic = before.isPublic
  name : after.name = before.name
  members : after.members = Member.extendFrom added 0 before.members ++ added []

theorem Class.extended (added : Additions) (decl : Class) :
    Class.Extended added decl (decl.extend added) := by
  cases decl
  exact ⟨rfl, rfl, rfl, rfl⟩

/-- A program whose classes were only added to: every address of a class still leads to that class. -/
structure Program.Extended (added : Additions) (before after : Program) : Prop where
  eq : after = before.extend added
  classes : ∀ path decl, before.classAt? path = some decl →
    ∃ found, after.classAt? path = some found ∧ Class.Extended (added.below path) decl found

theorem Program.extended (added : Additions) (program : Program) :
    Program.Extended added program (program.extend added) :=
  ⟨rfl, fun _ _ reached => ⟨_, Program.classAt?_extend_of_some added reached, Class.extended _ _⟩⟩

namespace Accessor

variable {program : Program} {edit : Edit} {edits others : List Edit}

/-! ### One edit after another -/

theorem applyEdit_of_missing (missing : program.classAt? edit.path = none) :
    applyEdit program edit = (program, 0) := by
  unfold applyEdit
  split
  · rfl
  · rw [missing]

theorem exists_extend_applyEdit (program : Program) (edit : Edit) :
    ∃ added, (applyEdit program edit).1 = program.extend added := by
  cases reached : program.classAt? edit.path with
  | none => exact ⟨.none, by rw [applyEdit_of_missing reached, Program.extend_none]⟩
  | some decl => exact ⟨_, by rw [applyEdit_eq_extend (by rw [reached]; rfl)]⟩

theorem exists_extend_applyEdits (program : Program) (edits : List Edit) :
    ∃ added, (applyEdits program edits).1 = program.extend added := by
  induction edits generalizing program with
  | nil => exact ⟨.none, program.extend_none.symm⟩
  | cons edit rest ih =>
      obtain ⟨first, here⟩ := exists_extend_applyEdit program edit
      obtain ⟨second, later⟩ := ih (applyEdit program edit).1
      obtain ⟨both, same⟩ := program.exists_extend_extend first second
      exact ⟨both, by rw [applyEdits, later, here, same]⟩

theorem applyEdits_append (program : Program) (before behind : List Edit) :
    applyEdits program (before ++ behind) =
      ((applyEdits (applyEdits program before).1 behind).1,
        (applyEdits program before).2 + (applyEdits (applyEdits program before).1 behind).2) := by
  induction before generalizing program with
  | nil => simp [applyEdits]
  | cons edit rest ih => simp only [List.cons_append, applyEdits, ih, Nat.add_assoc]

/-- The edits that find a class at their address when their turn comes. -/
def applied (program : Program) : List Edit → List Edit
  | [] => []
  | edit :: rest =>
      let later := applied (applyEdit program edit).1 rest
      if (program.classAt? edit.path).isSome then edit :: later else later

theorem added_applyEdits (program : Program) (edits : List Edit) :
    (applyEdits program edits).2 = ((applied program edits).map (·.members.length)).sum := by
  induction edits generalizing program with
  | nil => rfl
  | cons edit rest ih =>
      simp only [applyEdits, applied, ih]
      cases reached : program.classAt? edit.path with
      | none => simp [applyEdit_of_missing reached]
      | some decl =>
          have carried : applyEdit program edit = _ := applyEdit_eq_extend (by rw [reached]; rfl)
          simp [carried]

/-- An edit for an address without a class, when its turn comes, may as well be left out. -/
theorem applyEdits_drop (before behind : List Edit)
    (missing : (applyEdits program before).1.classAt? edit.path = none) :
    applyEdits program (before ++ edit :: behind) = applyEdits program (before ++ behind) := by
  rw [applyEdits_append, applyEdits_append]
  simp only [applyEdits, applyEdit_of_missing missing, Nat.zero_add]

/-! ### Edits for classes that are there from the start -/

/-- Every edit is for a class of the program. -/
def AllResolve (program : Program) (edits : List Edit) : Prop :=
  ∀ edit ∈ edits, (program.classAt? edit.path).isSome

/-- The same edits, those for one class in the same order. -/
structure Reordered (edits others : List Edit) : Prop where
  perm : edits.Perm others
  each : ∀ path, edits.filter (·.path == path) = others.filter (·.path == path)

theorem applyEdits_reordered (resolve : AllResolve program edits) (same : Reordered edits others) :
    applyEdits program others = applyEdits program edits := by
  have otherResolve : AllResolve program others := fun edit inside =>
    resolve edit (same.perm.mem_iff.mpr inside)
  have members : membersAt others = membersAt edits :=
    funext fun path => congrArg (List.flatMap Edit.members) (same.each path).symm
  have number := (same.perm.flatMap_right Edit.members).length_eq
  rw [applyEdits_eq_extend program others otherResolve, applyEdits_eq_extend program edits resolve,
    members, number]

/-- Edits do what they say and nothing else. For every program and all edits, an address of a class
still leads to that class, with members added behind those that were there; what is counted are the
members of the edits that found a class; and an edit that finds none may as well be left out. If all
edits are for classes of the program, a class gets the members of the edits for its address in their
order, so that only the order of edits for one class matters. -/
theorem applyEdits_exact (program : Program) (edits : List Edit) :
    let after := (applyEdits program edits).1
    (∃ added, Program.Extended added program after) ∧
    (applyEdits program edits).2 = ((applied program edits).map (·.members.length)).sum ∧
    (∀ before edit behind, edits = before ++ edit :: behind →
      (applyEdits program before).1.classAt? edit.path = none →
      applyEdits program edits = applyEdits program (before ++ behind)) ∧
    (AllResolve program edits →
      (∃ added, Program.Extended added program after ∧
        ∀ path, added path = (edits.filter (·.path == path)).flatMap (·.members)) ∧
      ∀ others, Reordered edits others → applyEdits program others = applyEdits program edits) := by
  refine ⟨?_, added_applyEdits program edits, ?_, fun resolve => ⟨?_, fun others same => ?_⟩⟩
  · obtain ⟨added, same⟩ := exists_extend_applyEdits program edits
    exact ⟨added, same ▸ program.extended added⟩
  · rintro before edit behind rfl missing
    exact applyEdits_drop before behind missing
  · rw [applyEdits_eq_extend program edits resolve]
    exact ⟨membersAt edits, program.extended _, fun path => rfl⟩
  · exact applyEdits_reordered resolve same

/-- An edit for a class, one for a class that the first one has added, and one for a class inside. -/
def nestedEdits (added : Class) (member : Member) : List Edit :=
  [⟨[0], [.nested .origin added]⟩, ⟨[0, 1], [member]⟩, ⟨[0, 0], [member, member]⟩]

theorem applyEdits_exact_nested :
    let inner : Class := ⟨[], false, "Inner", []⟩
    let outer : Class := ⟨[⟨.origin, ["Data"]⟩], true, "Outer", [.nested .origin inner]⟩
    let program : Program := ⟨[.type .origin outer]⟩
    let member : Member := .field .origin ⟨[], false, "x", none, none⟩
    let edits := nestedEdits inner member
    let own : List Edit := [⟨[0], [member]⟩, ⟨[0, 0], [member, member]⟩]
    (applyEdits program edits).2 = 4 ∧
      (∃ found added, (applyEdits program edits).1.classAt? [0] = some found ∧
        Class.Extended added outer found) ∧
      applyEdits program (own ++ [⟨[1], [member]⟩]) = applyEdits program own ∧
      applyEdits program own.reverse = applyEdits program own := by
  intro inner outer program member edits own
  obtain ⟨⟨added, grown⟩, _, _, _⟩ := applyEdits_exact program edits
  obtain ⟨found, reached, extended⟩ := grown.classes [0] outer rfl
  obtain ⟨_, _, drop, _⟩ := applyEdits_exact program (own ++ [⟨[1], [member]⟩])
  obtain ⟨_, _, _, order⟩ := applyEdits_exact program own
  have resolve : AllResolve program own := by
    simp [AllResolve, own, program, outer, inner, Program.classAt?, Declaration.class?,
      Class.descend?, Member.nested?]
  refine ⟨by decide +kernel, ⟨found, _, reached, extended⟩, ?_, (order resolve).2 _ ⟨?_, ?_⟩⟩
  · simpa using drop own ⟨[1], [member]⟩ [] rfl rfl
  · exact (List.reverse_perm own).symm
  · intro path
    by_cases here : [0] = path
    · subst here
      rfl
    · simp [own, List.filter_cons, here]

end Accessor

end DataClass
