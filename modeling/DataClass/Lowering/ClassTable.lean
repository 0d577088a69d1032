import DataClass.Lowering.TypeRef
import DataClass.Lowering.Writes
import DataClass.Program.Basic
namespace DataClass.Lowering

/-! What has to be known about all classes before a body can be lowered: the types of their fields,
whether they are built by a constructor, and which methods change their receiver.
-/

mutual

/-- A class and the classes nested in it, each before its own nested classes. -/
def classTree (decl : Class) : List Class :=
  match decl with
  | ⟨tags, isPublic, name, members⟩ => ⟨tags, isPublic, name, members⟩ :: memberTrees members

def memberTree : Member → List Class
  | .nested _ decl => classTree decl
  | .field _ _ | .method _ _ | .constructor _ _ | .initializer _ _ => []

def memberTrees : List Member → List Class
  | [] => []
  | member :: rest => memberTree member ++ memberTrees rest

end

/-- All classes of a program in source order. -/
def allClasses (program : Program) : List Class := program.classes.flatMap classTree

structure ClassInfo where
  name : String
  /-- The known types of fields. Of two fields with one name the later one counts. -/
  fieldTypes : List (String × TypeRef)
  /-- Whether there is a constructor or an initializer. -/
  hasNew : Bool
  /-- The names of the methods that are known to change their receiver. -/
  mutators : List String

/-- The type of a field: the declared one, or the one that its default tells. -/
def knownType? (field : Field) : Option TypeRef :=
  match field.type with
  | some type => some type
  | none => field.default.bind inferredType?

/-- The types of fields, the latest first. -/
def knownTypes (fields : List FieldMember) : List (String × TypeRef) :=
  fields.foldl
    (fun types entry =>
      match knownType? entry.field with
      | some type => (entry.field.name, type) :: types
      | none => types)
    []

def isBuilder : Member → Bool
  | .constructor _ _ | .initializer _ _ => true
  | _ => false

namespace ClassInfo

/-- What is known before any body has been looked at. -/
def ofClass (decl : Class) : ClassInfo :=
  ⟨decl.name, knownTypes decl.fields, decl.members.any isBuilder, []⟩

def fieldType? (info : ClassInfo) (name : String) : Option TypeRef := info.fieldTypes.lookup name

/-- Note a method of the class `owner`. Other classes stay as they are. -/
def mark (owner name : String) (info : ClassInfo) : ClassInfo :=
  if info.name = owner then { info with mutators := name :: info.mutators } else info

@[simp] theorem mark_name (owner name : String) (info : ClassInfo) :
    (info.mark owner name).name = info.name := by
  unfold mark
  split <;> rfl

end ClassInfo

/-- A method with the name of its class. -/
structure OwnedMethod where
  owner : String
  method : Method

/-- The methods of classes, in source order. -/
def ownedMethods (classes : List Class) : List OwnedMethod :=
  classes.flatMap fun decl => decl.methods.map (⟨decl.name, ·⟩)

structure ClassTable where
  classes : List ClassInfo
  /-- The names of the methods that are known to change their receiver, of all classes together. -/
  mutators : List String

namespace ClassTable

def empty : ClassTable := ⟨[], []⟩

/-- Forget what an earlier program has left. -/
def clear (table : ClassTable) : ClassTable := { table with classes := [], mutators := [] }

def find? (table : ClassTable) (name : String) : Option ClassInfo :=
  table.classes.find? (·.name == name)

/-- Whether a call of a method changes its receiver, as far as is known. The class of the receiver
is not, so the name of the method decides. -/
def isMutating (table : ClassTable) (name : String) : Bool :=
  libraryMutators.contains name || table.mutators.contains name

/-- Whether a method is known to change its receiver. Methods of one name in one class do so
together. -/
def changesReceiver (table : ClassTable) (owner name : String) : Bool :=
  match table.find? owner with
  | some info => info.mutators.contains name
  | none => false

/-- Put in a class. It hides a class of the same name. -/
def enter (info : ClassInfo) (table : ClassTable) : ClassTable :=
  { table with classes := info :: table.classes }

/-- Put in classes in their order, up to the first one whose name is taken. -/
def enterAll (table : ClassTable) : List Class → ClassTable × Option LoweringFault
  | [] => (table, none)
  | decl :: rest =>
      let entered := table.enter (.ofClass decl)
      if (table.find? decl.name).isSome then (entered, some (.duplicateClass decl.name))
      else entered.enterAll rest

/-- Note that a method changes its receiver, with its class and for all classes. -/
def mark (owner name : String) (table : ClassTable) : ClassTable :=
  ⟨table.classes.map (·.mark owner name), name :: table.mutators⟩

/-- The table in which a method is noted, if the method writes through `this` and is not noted yet.
Whether it writes hangs on what is known so far. -/
def look? (table : ClassTable) (owned : OwnedMethod) : Option ClassTable :=
  match table.find? owned.owner with
  | none => none
  | some info =>
      if info.mutators.contains owned.method.name then none
      else if writesThis table.isMutating owned.method.body then
        some (table.mark owned.owner owned.method.name)
      else none

/-- Look at methods in their order, and tell whether one has been noted. What is noted counts at
once for the methods behind it. -/
def pass (table : ClassTable) : List OwnedMethod → ClassTable × Bool
  | [] => (table, false)
  | owned :: rest =>
      match table.look? owned with
      | none => table.pass rest
      | some noted => ((noted.pass rest).1, true)

/-- How many methods are not noted. -/
def pending (table : ClassTable) (methods : List OwnedMethod) : Nat :=
  methods.countP fun owned => !table.changesReceiver owned.owner owned.method.name

theorem find?_mark (table : ClassTable) (owner name other : String) :
    (table.mark owner name).find? other = (table.find? other).map (ClassInfo.mark owner name) := by
  have same : (fun info : ClassInfo => info.name == other) ∘ ClassInfo.mark owner name =
      fun info => info.name == other := funext fun info => by simp
  rw [find?, find?, mark, List.find?_map, same]

theorem changesReceiver_mark (table : ClassTable) (owner name other method : String) :
    (table.mark owner name).changesReceiver other method =
      (table.changesReceiver other method ||
        (table.find? other).isSome && decide (other = owner ∧ method = name)) := by
  unfold changesReceiver
  rw [find?_mark]
  cases found : table.find? other with
  | none => rfl
  | some info =>
      have named : info.name = other := by simpa using List.find?_some found
      by_cases here : other = owner
      · simp [ClassInfo.mark, named, here, Bool.or_comm]
      · simp [ClassInfo.mark, named, here]

/-- A look that has an effect notes a method that writes and was not noted before. -/
theorem eq_mark_of_look? {table noted : ClassTable} {owned : OwnedMethod}
    (looked : table.look? owned = some noted) :
    noted = table.mark owned.owner owned.method.name ∧
      table.changesReceiver owned.owner owned.method.name = false ∧
      (table.find? owned.owner).isSome ∧
      writesThis table.isMutating owned.method.body = true := by
  unfold look? at looked
  unfold changesReceiver
  cases found : table.find? owned.owner with
  | none => simp [found] at looked
  | some info =>
      simp only [found, Option.ite_none_left_eq_some, Option.ite_none_right_eq_some,
        Option.some.injEq] at looked
      obtain ⟨fresh, writes, rfl⟩ := looked
      exact ⟨rfl, by simpa using fresh, rfl, writes⟩

theorem pending_mark_le (table : ClassTable) (owner name : String) (methods : List OwnedMethod) :
    (table.mark owner name).pending methods ≤ table.pending methods := by
  apply List.countP_mono_left
  intro owned _ left
  rw [changesReceiver_mark] at left
  simp_all

theorem pending_look? {table noted : ClassTable} {owned : OwnedMethod}
    (looked : table.look? owned = some noted) {methods : List OwnedMethod}
    (inside : owned ∈ methods) : noted.pending methods < table.pending methods := by
  obtain ⟨rfl, fresh, known, _⟩ := eq_mark_of_look? looked
  have done : (table.mark owned.owner owned.method.name).changesReceiver owned.owner
      owned.method.name = true := by simp [changesReceiver_mark, known]
  obtain ⟨before, behind, rfl⟩ := List.append_of_mem inside
  have left := table.pending_mark_le owned.owner owned.method.name before
  have right := table.pending_mark_le owned.owner owned.method.name behind
  simp only [pending, List.countP_append, List.countP_cons, fresh, done] at left right ⊢
  simp
  omega

theorem pending_pass_le (table : ClassTable) (looked methods : List OwnedMethod)
    (inside : ∀ owned ∈ looked, owned ∈ methods) :
    (table.pass looked).1.pending methods ≤ table.pending methods := by
  induction looked generalizing table with
  | nil => exact Nat.le_refl _
  | cons owned rest ih =>
      have later := fun table => ih table fun other held => inside other (List.mem_cons_of_mem _ held)
      unfold pass
      split
      · exact later table
      · next noted found =>
        exact Nat.le_trans (later noted)
          (Nat.le_of_lt (pending_look? found (inside owned List.mem_cons_self)))

/-- A pass that notes anything leaves fewer methods for the next one. -/
theorem pending_pass_lt {table : ClassTable} {looked methods : List OwnedMethod}
    (inside : ∀ owned ∈ looked, owned ∈ methods) (changed : (table.pass looked).2 = true) :
    (table.pass looked).1.pending methods < table.pending methods := by
  induction looked generalizing table with
  | nil => cases changed
  | cons owned rest ih =>
      have behind := fun other held => inside other (List.mem_cons_of_mem owned held)
      unfold pass at changed ⊢
      split at changed
      · exact ih behind changed
      · next noted found =>
        exact Nat.lt_of_le_of_lt (noted.pending_pass_le rest methods behind)
          (pending_look? found (inside owned List.mem_cons_self))

/-- Pass over methods until nothing is noted any more. -/
def grow (table : ClassTable) (methods : List OwnedMethod) : ClassTable :=
  let outcome := table.pass methods
  if outcome.2 then outcome.1.grow methods else outcome.1
termination_by table.pending methods
decreasing_by exact pending_pass_lt (fun _ held => held) ‹_›

/-- Learn about the classes of a program. No two of them may have the same name. -/
def collect (program : Program) (table : ClassTable) : ClassTable × Option LoweringFault :=
  let classes := allClasses program
  match table.clear.enterAll classes with
  | (entered, some fault) => (entered, some fault)
  | (entered, none) => (entered.grow (ownedMethods classes), none)

end ClassTable

end DataClass.Lowering
