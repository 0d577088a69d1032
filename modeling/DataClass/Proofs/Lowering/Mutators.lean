import Mathlib.Data.List.Nodup
import Mathlib.Logic.Function.Iterate
import DataClass.Lowering.ClassTable
import DataClass.Proofs.Lowering.Writes
namespace DataClass.Lowering

/-! Which methods are found to change their receiver. A pass uses at once what it notes, with a
class and for all classes together, and passes are repeated until one notes nothing. All that is
noted follows from the rule, and a pass that notes nothing leaves the rule nothing to add. So the
result is the least that is closed under the rule, whatever the order of classes and methods. -/

theorem mem_ownedMethods {classes : List Class} {owned : OwnedMethod} :
    owned ∈ ownedMethods classes ↔
      ∃ decl ∈ classes, ∃ method ∈ decl.methods, ⟨decl.name, method⟩ = owned := by
  simp only [ownedMethods, List.mem_flatMap, List.mem_map]

namespace ClassTable

variable {table noted : ClassTable} {methods : List OwnedMethod}

/-! ### Runs of the loop -/

theorem pass_of_unchanged (same : (table.pass methods).2 = false) :
    (table.pass methods).1 = table ∧ ∀ owned ∈ methods, table.look? owned = none := by
  induction methods with
  | nil => exact ⟨rfl, nofun⟩
  | cons owned rest ih =>
      unfold pass at same ⊢
      split at same
      · next looked =>
        obtain ⟨kept, none⟩ := ih same
        exact ⟨kept, List.forall_mem_cons.mpr ⟨looked, none⟩⟩
      · cases same

/-- The passes come to an end: after at most as many passes as there are methods there is one that
notes nothing. -/
theorem grow_eq_iterate (table : ClassTable) (methods : List OwnedMethod) :
    ∃ turns ≤ table.pending methods,
      table.grow methods = (fun table => (table.pass methods).1)^[turns] table ∧
        ((table.grow methods).pass methods).2 = false := by
  induction table using ClassTable.grow.induct methods with
  | case1 table outcome changed ih =>
      obtain ⟨turns, few, result, last⟩ := ih
      have fewer := pending_pass_lt (fun _ held => held) changed
      rw [grow, if_pos changed]
      exact ⟨turns + 1, Nat.lt_of_le_of_lt few fewer, result, last⟩
  | case2 table outcome unchanged =>
      have same : (table.pass methods).2 = false := by simpa using unchanged
      have kept := (pass_of_unchanged same).1
      rw [grow, if_neg unchanged, kept]
      exact ⟨0, Nat.zero_le _, rfl, same⟩

/-- What holds at first and is kept whenever a method is noted holds in the end. -/
theorem grow_keeps {kept : ClassTable → Prop}
    (step : ∀ table noted, ∀ owned ∈ methods, kept table → table.look? owned = some noted → kept noted)
    (start : kept table) : kept (table.grow methods) := by
  have passes (looked : List OwnedMethod) (inside : ∀ owned ∈ looked, owned ∈ methods)
      (table : ClassTable) (start : kept table) : kept (table.pass looked).1 := by
    induction looked generalizing table with
    | nil => exact start
    | cons owned rest ih =>
        obtain ⟨here, behind⟩ := List.forall_mem_cons.mp inside
        unfold pass
        split
        · exact ih behind table start
        · next noted looked => exact ih behind noted (step table noted owned here start looked)
  obtain ⟨turns, -, result, -⟩ := table.grow_eq_iterate methods
  rw [result]
  clear result
  induction turns generalizing table with
  | zero => exact start
  | succ turns ih => exact ih (passes methods (fun _ held => held) table start)

/-! ### What is noted -/

theorem contains_of_changesReceiver {owner name : String}
    (changes : table.changesReceiver owner name = true) :
    ∃ info, table.find? owner = some info ∧ name ∈ info.mutators := by
  unfold changesReceiver at changes
  cases found : table.find? owner with
  | none => simp [found] at changes
  | some info => exact ⟨info, rfl, by simpa [found] using changes⟩

theorem changesReceiver_of_find? {owner name : String} {info : ClassInfo}
    (found : table.find? owner = some info) :
    table.changesReceiver owner name = true ↔ name ∈ info.mutators := by
  simp [changesReceiver, found]

/-- The names noted for all classes together are those noted with some class. -/
def InStep (table : ClassTable) : Prop :=
  ∀ name, name ∈ table.mutators ↔ ∃ info ∈ table.classes, name ∈ info.mutators

theorem InStep.look? {owned : OwnedMethod} (inStep : table.InStep)
    (looked : table.look? owned = some noted) : noted.InStep := by
  obtain ⟨rfl, _, known, _⟩ := eq_mark_of_look? looked
  obtain ⟨info, found⟩ := Option.isSome_iff_exists.mp known
  have listed : info ∈ table.classes := List.mem_of_find?_eq_some found
  have named : info.name = owned.owner := by simpa using List.find?_some found
  intro name
  simp only [mark, List.mem_cons, List.mem_map, exists_exists_and_eq_and, inStep name]
  constructor
  · rintro (rfl | ⟨other, inside, present⟩)
    · exact ⟨info, listed, by simp [ClassInfo.mark, named]⟩
    · refine ⟨other, inside, ?_⟩
      unfold ClassInfo.mark
      split
      · exact List.mem_cons_of_mem _ present
      · exact present
  · rintro ⟨other, inside, present⟩
    unfold ClassInfo.mark at present
    split at present
    · exact (List.mem_cons.mp present).imp_right fun old => ⟨other, inside, old⟩
    · exact .inr ⟨other, inside, present⟩

end ClassTable

/-- Which methods change their receiver by a family of sets of names, one for each class. -/
noncomputable def mutatingBy (classes : List Class) (family : String → String → Prop)
    (name : String) : Bool :=
  open Classical in
  libraryMutators.contains name || decide (∃ decl ∈ classes, family decl.name name)

/-- A family of sets of names that has every method which writes through `this` by the family
itself. -/
def ClosedUnderWrites (classes : List Class) (family : String → String → Prop) : Prop :=
  ∀ decl ∈ classes, ∀ method ∈ decl.methods,
    writesThis (mutatingBy classes family) method.body = true → family decl.name method.name

namespace ClassTable

/-- The table is about some classes, which have names of their own: each of them is found, with what
is known about it before any body has been looked at, and there is no other. -/
structure About (classes : List Class) (table : ClassTable) : Prop where
  apart : (classes.map Class.name).Nodup
  found : ∀ decl ∈ classes, ∃ marked, table.find? decl.name =
    some { ClassInfo.ofClass decl with mutators := marked }
  only : ∀ info ∈ table.classes, ∃ decl ∈ classes, decl.name = info.name
  inStep : table.InStep

variable {table noted entered : ClassTable} {classes : List Class}
  {family : String → String → Prop}

theorem About.look? {owned : OwnedMethod} (about : table.About classes)
    (looked : table.look? owned = some noted) : noted.About classes := by
  have inStep := about.inStep.look? looked
  obtain ⟨rfl, -⟩ := eq_mark_of_look? looked
  refine ⟨about.apart, fun decl inside => ?_, fun info inside => ?_, inStep⟩
  · obtain ⟨marked, found⟩ := about.found decl inside
    rw [find?_mark, found, Option.map_some]
    unfold ClassInfo.mark
    split
    · exact ⟨_, rfl⟩
    · exact ⟨marked, rfl⟩
  · obtain ⟨old, listed, rfl⟩ := List.mem_map.mp inside
    rw [ClassInfo.mark_name]
    exact about.only old listed

theorem isMutating_within (about : table.About classes)
    (within : ∀ info ∈ table.classes, ∀ name ∈ info.mutators, family info.name name) (name : String)
    (mutating : table.isMutating name = true) : mutatingBy classes family name = true := by
  simp only [isMutating, mutatingBy, Bool.or_eq_true, decide_eq_true_eq] at mutating ⊢
  refine mutating.imp_right fun noted => ?_
  obtain ⟨info, listed, present⟩ := (about.inStep name).mp (List.contains_iff_mem.mp noted)
  obtain ⟨decl, inside, same⟩ := about.only info listed
  exact ⟨decl, inside, same ▸ within info listed name present⟩

/-- What a family that is closed has keeps having what is noted. -/
theorem within_look? {owned : OwnedMethod} (closed : ClosedUnderWrites classes family)
    (about : table.About classes) (inside : owned ∈ ownedMethods classes)
    (within : ∀ info ∈ table.classes, ∀ name ∈ info.mutators, family info.name name)
    (looked : table.look? owned = some noted) :
    ∀ info ∈ noted.classes, ∀ name ∈ info.mutators, family info.name name := by
  obtain ⟨rfl, -, -, writes⟩ := eq_mark_of_look? looked
  obtain ⟨decl, declared, method, held, rfl⟩ := mem_ownedMethods.mp inside
  have new : family decl.name method.name := closed decl declared method held
    (writesThis_mono (isMutating_within about within) writes)
  intro info listed name present
  obtain ⟨old, there, rfl⟩ := List.mem_map.mp listed
  rw [ClassInfo.mark_name]
  unfold ClassInfo.mark at present
  split at present
  · next own =>
    rcases List.mem_cons.mp present with rfl | before
    · exact own ▸ new
    · exact within old there name before
  · exact within old there name present

/-! ### Entering classes -/

theorem find?_enterAll_of_some {name : String} {info : ClassInfo}
    (done : table.enterAll classes = (entered, none)) (found : table.find? name = some info) :
    entered.find? name = some info := by
  induction classes generalizing table with
  | nil =>
      cases done
      exact found
  | cons decl rest ih =>
      unfold enterAll at done
      split at done
      · cases done
      · next free =>
        have other : decl.name ≠ name := by
          rintro rfl
          exact free (found ▸ rfl)
        refine ih done ?_
        simpa [find?, enter, ClassInfo.ofClass, other] using found

theorem find?_enterAll (done : table.enterAll classes = (entered, none)) :
    ∀ decl ∈ classes, entered.find? decl.name = some (.ofClass decl) := by
  induction classes generalizing table with
  | nil => nofun
  | cons first rest ih =>
      unfold enterAll at done
      split at done
      · cases done
      · refine List.forall_mem_cons.mpr ⟨find?_enterAll_of_some done ?_, ih done⟩
        simp [find?, enter, ClassInfo.ofClass]

theorem classes_enterAll (done : table.enterAll classes = (entered, none)) :
    entered.mutators = table.mutators ∧
      ∀ info ∈ entered.classes, info ∈ table.classes ∨ ∃ decl ∈ classes, .ofClass decl = info := by
  induction classes generalizing table with
  | nil =>
      cases done
      exact ⟨rfl, fun info => .inl⟩
  | cons first rest ih =>
      unfold enterAll at done
      split at done
      · cases done
      · obtain ⟨same, origin⟩ := ih done
        refine ⟨same, fun info listed => ?_⟩
        rcases origin info listed with there | ⟨decl, inside, rfl⟩
        · exact (List.mem_cons.mp there).symm.imp_right fun new => ⟨first, List.mem_cons_self, new.symm⟩
        · exact .inr ⟨decl, List.mem_cons_of_mem _ inside, rfl⟩

theorem find?_of_enterAll (done : table.enterAll classes = (entered, none)) :
    ∀ decl ∈ classes, table.find? decl.name = none := by
  induction classes generalizing table with
  | nil => nofun
  | cons first rest ih =>
      unfold enterAll at done
      split at done
      · cases done
      · next free =>
        refine List.forall_mem_cons.mpr ⟨by simpa using free, fun decl inside => ?_⟩
        have missing := ih done decl inside
        rw [find?, enter, List.find?_cons] at missing
        split at missing
        · cases missing
        · exact missing

theorem nodup_of_enterAll (done : table.enterAll classes = (entered, none)) :
    (classes.map Class.name).Nodup := by
  induction classes generalizing table with
  | nil => exact List.nodup_nil
  | cons first rest ih =>
      unfold enterAll at done
      split at done
      · cases done
      · refine List.nodup_cons.mpr ⟨fun again => ?_, ih done⟩
        obtain ⟨other, inside, same⟩ := List.mem_map.mp again
        have missing := find?_of_enterAll done other inside
        simp [find?, enter, ClassInfo.ofClass, same] at missing

/-- Before any body is looked at nothing is noted. -/
theorem about_enterAll (done : table.clear.enterAll classes = (entered, none)) :
    entered.About classes ∧ ∀ info ∈ entered.classes, info.mutators = [] := by
  obtain ⟨none, origin⟩ := classes_enterAll done
  have known : ∀ info ∈ entered.classes, ∃ decl ∈ classes, .ofClass decl = info :=
    fun info listed => (origin info listed).resolve_left List.not_mem_nil
  have unmarked : ∀ info ∈ entered.classes, info.mutators = [] := by
    intro info listed
    obtain ⟨decl, _, rfl⟩ := known info listed
    rfl
  refine ⟨⟨nodup_of_enterAll done, fun decl inside => ⟨[], find?_enterAll done decl inside⟩, fun info listed => ?_,
    fun name => ?_⟩, unmarked⟩
  · obtain ⟨decl, inside, rfl⟩ := known info listed
    exact ⟨decl, inside, rfl⟩
  · rw [none]
    refine ⟨fun held => (List.not_mem_nil held).elim, ?_⟩
    rintro ⟨info, listed, held⟩
    rw [unmarked info listed] at held
    exact held

/-! ### The rule -/

/-- A method is noted exactly if some method of its class with its name writes through `this`, and
what is noted is all for all classes together. Each family of sets that is closed under this rule has
everything that is noted. -/
structure LeastWriters (classes : List Class) (table : ClassTable) : Prop where
  union : ∀ name, name ∈ table.mutators ↔ ∃ info ∈ table.classes, name ∈ info.mutators
  rule : ∀ decl ∈ classes, ∃ info, table.find? decl.name = some info ∧ ∀ name,
    name ∈ info.mutators ↔
      ∃ method ∈ decl.methods, method.name = name ∧ writesThis table.isMutating method.body = true
  least : ∀ family, ClosedUnderWrites classes family →
    ∀ info ∈ table.classes, ∀ name ∈ info.mutators, family info.name name

theorem look?_of_known {owned : OwnedMethod} {info : ClassInfo}
    (found : table.find? owned.owner = some info) (looked : table.look? owned = none)
    (writes : writesThis table.isMutating owned.method.body = true) :
    owned.method.name ∈ info.mutators := by
  simpa [look?, found, writes] using looked

/-- A family that is closed under the rule has all that is noted in the end. -/
theorem within_grow (closed : ClosedUnderWrites classes family) (about : table.About classes)
    (unmarked : ∀ info ∈ table.classes, info.mutators = []) :
    ∀ info ∈ (table.grow (ownedMethods classes)).classes, ∀ name ∈ info.mutators,
      family info.name name := by
  let kept (table : ClassTable) : Prop := table.About classes ∧
    ∀ info ∈ table.classes, ∀ name ∈ info.mutators, family info.name name
  have both : kept (table.grow (ownedMethods classes)) := grow_keeps
    (fun _ _ _ inside kept looked =>
      ⟨kept.1.look? looked, within_look? closed kept.1 inside kept.2 looked⟩)
    ⟨about, fun info listed => by simp [unmarked info listed]⟩
  exact both.2

/-- The names that the rule gives by what is noted in a table. -/
def WritesBy (classes : List Class) (table : ClassTable) (owner name : String) : Prop :=
  ∃ decl ∈ classes, decl.name = owner ∧ ∃ method ∈ decl.methods, method.name = name ∧
    writesThis table.isMutating method.body = true

/-- Where nothing is left to note, the names by the rule are closed under the rule, for whoever writes
has been noted. -/
theorem closedUnderWrites_writesBy (about : table.About classes)
    (settled : ∀ owned ∈ ownedMethods classes, table.look? owned = none) :
    ClosedUnderWrites classes (WritesBy classes table) := by
  intro decl inside method held writes
  refine ⟨decl, inside, rfl, method, held, rfl, writesThis_mono (fun name => ?_) writes⟩
  simp only [isMutating, mutatingBy, Bool.or_eq_true, decide_eq_true_eq]
  refine Or.imp_right ?_
  rintro ⟨_, _, other, declared, -, method, held, rfl, writes⟩
  obtain ⟨marked, found⟩ := about.found other declared
  have present := look?_of_known found
    (settled _ (mem_ownedMethods.mpr ⟨other, declared, method, held, rfl⟩)) writes
  exact List.contains_iff_mem.mpr
    ((about.inStep _).mpr ⟨_, List.mem_of_find?_eq_some found, present⟩)

theorem leastWriters_grow (about : table.About classes)
    (unmarked : ∀ info ∈ table.classes, info.mutators = []) :
    (table.grow (ownedMethods classes)).About classes ∧
      LeastWriters classes (table.grow (ownedMethods classes)) := by
  have after : (table.grow (ownedMethods classes)).About classes :=
    grow_keeps (fun _ _ _ _ kept => kept.look?) about
  have least : ∀ family, ClosedUnderWrites classes family →
      ∀ info ∈ (table.grow (ownedMethods classes)).classes, ∀ name ∈ info.mutators,
        family info.name name := fun _ closed => within_grow closed about unmarked
  obtain ⟨_, _, _, last⟩ := table.grow_eq_iterate (ownedMethods classes)
  obtain ⟨-, settled⟩ := pass_of_unchanged last
  generalize table.grow (ownedMethods classes) = grown at after least settled ⊢
  refine ⟨after, after.inStep, fun decl inside => ?_, least⟩
  obtain ⟨marked, found⟩ := after.found decl inside
  refine ⟨_, found, fun name => ⟨fun noted => ?_, ?_⟩⟩
  · obtain ⟨other, declared, same, here⟩ := least _ (closedUnderWrites_writesBy after settled) _
      (List.mem_of_find?_eq_some found) name noted
    exact List.inj_on_of_nodup_map after.apart declared inside same ▸ here
  · rintro ⟨method, held, rfl, writes⟩
    exact look?_of_known found
      (settled _ (mem_ownedMethods.mpr ⟨decl, inside, method, held, rfl⟩)) writes

theorem collect_eq_grow {start : ClassTable} {program : Program}
    (collected : start.collect program = (table, none)) :
    ∃ entered, start.clear.enterAll (allClasses program) = (entered, none) ∧
      table = entered.grow (ownedMethods (allClasses program)) := by
  dsimp only [collect] at collected
  split at collected
  · cases collected
  · next entered done =>
    exact ⟨entered, done, (congrArg Prod.fst collected).symm⟩

theorem collect_about {start : ClassTable} {program : Program}
    (collected : start.collect program = (table, none)) :
    table.About (allClasses program) ∧ LeastWriters (allClasses program) table := by
  obtain ⟨entered, done, rfl⟩ := collect_eq_grow collected
  obtain ⟨about, unmarked⟩ := about_enterAll done
  exact leastWriters_grow about unmarked

theorem LeastWriters.mem_mutators (least : LeastWriters classes table) {owner name : String}
    (changes : table.changesReceiver owner name = true) : name ∈ table.mutators := by
  obtain ⟨info, found, present⟩ := contains_of_changesReceiver changes
  exact (least.union name).mpr ⟨info, List.mem_of_find?_eq_some found, present⟩

/-- With more methods at least as much is noted. -/
theorem LeastWriters.mono {others : List Class} {other : ClassTable}
    (least : LeastWriters classes table) (rule : LeastWriters others other)
    (subset : ∀ owned ∈ ownedMethods classes, owned ∈ ownedMethods others) :
    (∀ owner name, table.changesReceiver owner name = true →
      other.changesReceiver owner name = true) ∧
      ∀ name ∈ table.mutators, name ∈ other.mutators := by
  have closed : ClosedUnderWrites classes fun owner name =>
      other.changesReceiver owner name = true := by
    intro decl inside method held writes
    obtain ⟨second, declared, _, present, equal⟩ :=
      mem_ownedMethods.mp (subset _ (mem_ownedMethods.mpr ⟨decl, inside, method, held, rfl⟩))
    obtain ⟨named, rfl⟩ := OwnedMethod.mk.inj equal
    obtain ⟨info, found, noted⟩ := rule.rule second declared
    rw [← named, changesReceiver_of_find? found, noted]
    refine ⟨_, present, rfl, writesThis_mono (fun name mutating => ?_) writes⟩
    simp only [isMutating, mutatingBy, Bool.or_eq_true, decide_eq_true_eq] at mutating ⊢
    refine mutating.imp_right ?_
    rintro ⟨third, _, changes⟩
    exact List.contains_iff_mem.mpr (rule.mem_mutators changes)
  have each := least.least _ closed
  constructor
  · intro owner name changes
    obtain ⟨info, found, present⟩ := contains_of_changesReceiver changes
    obtain rfl : info.name = owner := by simpa using List.find?_some found
    exact each info (List.mem_of_find?_eq_some found) name present
  · intro name noted
    obtain ⟨info, listed, present⟩ := (least.union name).mp noted
    exact rule.mem_mutators (each info listed name present)

/-- What is learned about the methods of a program. After finitely many passes one notes nothing. What
is noted by then is the least that is closed under the rule that a method changes its receiver if it
writes through `this`, and the names noted with the classes are those noted for all of them together.
So it is the same for every program with the same methods in the same classes, whatever their order,
and whatever has been collected before. -/
theorem collect_leastWriters {start : ClassTable} {program : Program}
    (collected : start.collect program = (table, none)) :
    (∃ entered, ∃ turns ≤ (ownedMethods (allClasses program)).length,
      start.clear.enterAll (allClasses program) = (entered, none) ∧
      table = (fun table => (table.pass (ownedMethods (allClasses program))).1)^[turns] entered ∧
      (table.pass (ownedMethods (allClasses program))).2 = false) ∧
    LeastWriters (allClasses program) table ∧
    ∀ (other : Program) (earlier result : ClassTable), earlier.collect other = (result, none) →
      (∀ owned, owned ∈ ownedMethods (allClasses other) ↔
        owned ∈ ownedMethods (allClasses program)) →
      (∀ owner name, result.changesReceiver owner name = table.changesReceiver owner name) ∧
        ∀ name, name ∈ result.mutators ↔ name ∈ table.mutators := by
  obtain ⟨_, least⟩ := collect_about collected
  refine ⟨?_, least, fun other earlier result again same => ?_⟩
  · obtain ⟨entered, done, rfl⟩ := collect_eq_grow collected
    obtain ⟨turns, few, result, last⟩ := entered.grow_eq_iterate (ownedMethods (allClasses program))
    exact ⟨entered, turns, Nat.le_trans few List.countP_le_length, done, result, last⟩
  · obtain ⟨_, otherLeast⟩ := collect_about again
    obtain ⟨forth, forthAll⟩ := otherLeast.mono least fun owned => (same owned).mp
    obtain ⟨back, backAll⟩ := least.mono otherLeast fun owned => (same owned).mpr
    exact ⟨fun owner name => Bool.eq_iff_iff.mpr ⟨forth owner name, back owner name⟩,
      fun name => ⟨forthAll name, backAll name⟩⟩

/-- A statement that calls a method of a field of `this`. -/
def callPeer (name : String) : Stmt :=
  .evaluate .origin (.methodCall .origin (.field .origin (.this .origin) "peer") name [])

/-- Two classes whose methods call each other. The one that writes stands behind the other one. -/
def mutualCalls : Program :=
  let method (name : String) (body : List Stmt) : Member :=
    .method .origin ⟨[], true, name, [], .void .origin, body⟩
  let write : Stmt := .assign .origin (.field .origin (.this .origin) "count") (.int .origin 1)
  ⟨[.type .origin ⟨[], true, "Left", [method "ping" [callPeer "pong"], method "rest" []]⟩,
    .type .origin ⟨[], true, "Right", [method "pong" [callPeer "ping", write]]⟩]⟩

theorem collect_leastWriters_mutualCalls :
    ∃ table, empty.collect mutualCalls = (table, none) ∧
      LeastWriters (allClasses mutualCalls) table ∧ table.changesReceiver "Left" "ping" = true ∧
      table.changesReceiver "Left" "rest" = false := by
  have done : (empty.collect mutualCalls).2 = none := by decide +kernel
  have collected : empty.collect mutualCalls = ((empty.collect mutualCalls).1, none) :=
    Prod.ext rfl done
  exact ⟨_, collected, (collect_leastWriters collected).2.1, by decide +kernel, by decide +kernel⟩

end ClassTable

end DataClass.Lowering
