import DataClass.Proofs.Accessor.Rounds
import DataClass.Proofs.Layout.Writable
import DataClass.Proofs.Program.Agreement
import DataClass.Proofs.Program.Lookup
namespace DataClass

/-! When nothing is planned for a class, and when nothing is reported: this depends on the names of
its methods and on which accessors are there, but not on places. -/

open TokenKind

namespace TokenKind

theorem Lexical.plain {kinds : List TokenKind} (lexical : Lexical kinds) : Plain kinds := by
  intro kind inside
  cases kind with
  | float value =>
      have literal : value.IsLiteral := lexical _ inside
      exact ⟨literal.isNaN, fun _ => literal.isNegative⟩
  | _ => trivial

end TokenKind

namespace Class

/-- The method is there, wherever it stands. -/
def Has (decl : Class) (method : Method) : Prop :=
  ∃ present ∈ decl.methods, present.erase = method.erase

/-- The method is there once the class has been written and read back. -/
def Rereads (decl : Class) (method : Method) : Prop :=
  ∃ present ∈ decl.methods, present.spelled.erase = method.erase

/-- A field that can have accessors, by its name and its type without places. -/
structure Accessible (decl : Class) (name : String) (type : TypeRef) : Prop where
  listed : (name, some type) ∈ decl.outlines
  valid : isIdentifier name = true
  value : type.isVoid = false

theorem plain_of_mem_methods {decl : Class} (writable : decl.Writable) {method : Method}
    (inside : method ∈ decl.methods) : Plain (Stmt.bodyKinds method.body) := by
  obtain ⟨member, held, isMethod⟩ := List.mem_filterMap.mp inside
  have lexical := ((writable_iff.mp writable).2 member held).lexical
  cases member with
  | method span found =>
      obtain rfl : found = method := by simpa [Member.method?] using isMethod
      rw [Member.kinds, Method.bareKinds] at lexical
      exact lexical.right.tail.tail.right.right.tail.left.plain
  | _ => simp [Member.method?] at isMethod

end Class

namespace Accessor

variable {policy : ConflictPolicy} {decl : Class} {planned : Planned}

theorem erase_getter (name : String) (type : TypeRef) (span : Span) :
    (getter name type span).erase = (getter name type.erase .origin).erase := by
  simp [getter, thisField, TypeRef.erase_erase]

theorem erase_setter (name : String) (type : TypeRef) (span : Span) :
    (setter name type span).erase = (setter name type.erase .origin).erase := by
  simp [setter, thisField, TypeRef.erase_erase]

theorem planFields_eq_nil_iff {entries : List FieldMember} :
    (planFields policy decl planned entries).members = [] ↔
      ∀ entry ∈ entries, (planField policy decl planned entry).accepted = [] := by
  refine ⟨fun nothing => ?_, planFields_members_of_none⟩
  induction entries with
  | nil => nofun
  | cons entry rest ih =>
      obtain ⟨here, later⟩ := List.append_eq_nil_iff.mp nothing
      have none : (planField policy decl planned entry).accepted = [] := List.map_eq_nil_iff.mp here
      rw [FieldPlan.names, none] at later
      exact List.forall_mem_cons.mpr ⟨none, ih later⟩

theorem accepted_eq_nil_iff {field : String} {span : Span} {methods : List Method} :
    (settle policy decl planned field span methods).accepted = [] ↔
      (policy = .error ∧
        ∃ method ∈ methods, ∃ obstacle, slotFor decl planned method = .taken obstacle) ∨
      ∀ method ∈ methods, slotFor decl planned method ≠ .free := by
  rcases settle_cases policy decl planned field span methods with
    ⟨_, nothing, conflict⟩ | ⟨_, accepted, clear⟩
  · exact ⟨fun _ => .inl conflict, fun _ => nothing⟩
  · rw [accepted, List.filter_eq_nil_iff]
    simp only [decide_eq_true_eq]
    refine ⟨.inr, ?_⟩
    rintro (⟨strict, method, inside, obstacle, slot⟩ | none)
    · exact absurd slot (clear strict method inside obstacle)
    · exact none

theorem isRejected_iff {field : String} {span : Span} {methods : List Method} :
    (settle policy decl planned field span methods).isRejected = true ↔
      policy = .error ∧
        ∃ method ∈ methods, ∃ obstacle, slotFor decl planned method = .taken obstacle := by
  rcases settle_cases policy decl planned field span methods with
    ⟨rejected, _, conflict⟩ | ⟨settled, _, clear⟩
  · exact ⟨fun _ => conflict, fun _ => rejected⟩
  · rw [settled]
    refine ⟨nofun, ?_⟩
    rintro ⟨strict, method, inside, obstacle, slot⟩
    exact absurd slot (clear strict method inside obstacle)

theorem slotFor_nil_eq_free_iff {method : Method} :
    slotFor decl [] method = .free ↔ method.name ∉ decl.methodNames := by
  simp [slotFor_eq_free_iff]

theorem slotFor_nil_eq_identical_iff (writable : decl.Writable) {method : Method}
    (plain : Plain (Stmt.bodyKinds method.body)) :
    slotFor decl [] method = .identical ↔ decl.Has method := by
  rw [slotFor_eq_identical_iff]
  constructor
  · rintro ⟨_, present, inside, _, alike⟩
    exact ⟨present, inside,
      (Method.alike_iff_erase (Class.plain_of_mem_methods writable inside) plain).mp alike⟩
  · rintro ⟨present, inside, same⟩
    have name : present.erase.name = method.erase.name := congrArg Method.name same
    exact ⟨rfl, present, inside, name,
      (Method.alike_iff_erase (Class.plain_of_mem_methods writable inside) plain).mpr same⟩

theorem slotFor_nil_eq_taken_iff (writable : decl.Writable) {method : Method}
    (plain : Plain (Stmt.bodyKinds method.body)) :
    (∃ obstacle, slotFor decl [] method = .taken obstacle) ↔
      method.name ∈ decl.methodNames ∧ ¬ decl.Has method := by
  rw [← slotFor_nil_eq_identical_iff writable plain]
  have free : slotFor decl [] method = .free ↔ method.name ∉ decl.methodNames :=
    slotFor_nil_eq_free_iff
  cases slot : slotFor decl [] method with
  | free => simpa [slot] using free
  | identical => simp
  | taken obstacle => simpa [slot] using free

theorem plain_getter (name : String) (type : TypeRef) (span : Span) :
    Plain (Stmt.bodyKinds (getter name type span).body) := by
  simp [Plain, getter, thisField, Stmt.bodyKinds, Stmt.kinds, Expr.optionKinds, Expr.kinds, IsPlain]

theorem plain_setter (name : String) (type : TypeRef) (span : Span) :
    Plain (Stmt.bodyKinds (setter name type span).body) := by
  simp [Plain, setter, thisField, Stmt.bodyKinds, Stmt.kinds, Expr.kinds, IsPlain]

theorem has_congr {left right : Method} (same : left.erase = right.erase) :
    decl.Has left ↔ decl.Has right := by
  rw [Class.Has, Class.Has, same]

/-- Nothing is planned for a field: both of its names belong to a method, or one of them to another
method than the accessor where that is an error. -/
def Calm (policy : ConflictPolicy) (names : List String) (has : Method → Prop) (name : String)
    (type : TypeRef) : Prop :=
  (policy = .error ∧
    (accessorName .getter name ∈ names ∧ ¬ has (getter name type .origin) ∨
      accessorName .setter name ∈ names ∧ ¬ has (setter name type .origin))) ∨
  (accessorName .getter name ∈ names ∧ accessorName .setter name ∈ names)

theorem accessible_of_synthesize {entry : FieldMember} (inside : entry ∈ decl.fields) {pair : Pair}
    (made : synthesize decl.name entry.field entry.span = .ok pair) :
    ∃ type, decl.Accessible entry.field.name type.erase ∧
      pair = ⟨getter entry.field.name type entry.span, setter entry.field.name type entry.span⟩ := by
  obtain ⟨type, valid, typed, value, same⟩ := synthesize_eq_ok made
  refine ⟨type, ⟨?_, valid, by rwa [TypeRef.isVoid_erase]⟩, same⟩
  have outline : entry.outline = (entry.field.name, some type.erase) := by
    rw [FieldMember.outline, typed, Option.map_some]
  exact outline ▸ List.mem_map_of_mem inside

theorem synthesize_of_outline {entry : FieldMember} {name : String} {type : TypeRef}
    (outline : entry.outline = (name, some type)) (accessible : decl.Accessible name type) :
    ∃ declared : TypeRef, declared.erase = type ∧ entry.field.name = name ∧
      synthesize decl.name entry.field entry.span =
        .ok ⟨getter name declared entry.span, setter name declared entry.span⟩ := by
  obtain ⟨_, valid, value⟩ := accessible
  obtain ⟨rfl, typed⟩ := Prod.mk.inj outline
  cases held : entry.field.type with
  | none => simp [held] at typed
  | some declared =>
      have same : declared.erase = type := by simpa [held] using typed
      refine ⟨declared, same, rfl, ?_⟩
      rw [← same, TypeRef.isVoid_erase] at value
      simp [synthesize, valid, held, value]

theorem planField_eq_nil_iff (writable : decl.Writable) {entry : FieldMember}
    {type : TypeRef}
    (made : synthesize decl.name entry.field entry.span =
      .ok ⟨getter entry.field.name type entry.span, setter entry.field.name type entry.span⟩) :
    (planField policy decl [] entry).accepted = [] ↔
      Calm policy decl.methodNames decl.Has entry.field.name type.erase := by
  have get := slotFor_nil_eq_taken_iff writable (plain_getter entry.field.name type entry.span)
  have set := slotFor_nil_eq_taken_iff writable (plain_setter entry.field.name type entry.span)
  rw [has_congr (erase_getter _ _ _)] at get
  rw [has_congr (erase_setter _ _ _)] at set
  simp only [planField, made, accepted_eq_nil_iff, Pair.methods, List.mem_cons, List.not_mem_nil,
    or_false, exists_eq_or_imp, exists_eq_left, forall_eq_or_imp, forall_eq, get, set, Ne,
    slotFor_nil_eq_free_iff, Decidable.not_not]
  rfl

/-- Whether anything is planned for a class. -/
theorem planClass_eq_nil_iff (writable : decl.Writable) :
    (planClass policy decl).members = [] ↔
      ∀ name type, decl.Accessible name type → Calm policy decl.methodNames decl.Has name type := by
  rw [planClass, planFields_eq_nil_iff]
  constructor
  · intro nothing name type accessible
    obtain ⟨entry, inside, outline⟩ := List.mem_map.mp accessible.listed
    obtain ⟨declared, rfl, rfl, made⟩ := synthesize_of_outline outline accessible
    exact (planField_eq_nil_iff writable made).mp (nothing entry inside)
  · intro calm entry inside
    cases made : synthesize decl.name entry.field entry.span with
    | error fault => simp [planField, made, FieldPlan.rejected]
    | ok pair =>
        obtain ⟨type, accessible, rfl⟩ := accessible_of_synthesize inside made
        exact (planField_eq_nil_iff writable made).mpr (calm _ _ accessible)

end Accessor

end DataClass
