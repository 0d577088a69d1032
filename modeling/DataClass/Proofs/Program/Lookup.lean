import DataClass.Proofs.Program.Extension
import DataClass.Proofs.Program.Spelled
namespace DataClass

/-! Classes, fields and methods of a program whose parts have been changed one by one. -/

namespace Member

/-- The name and the type of a field, without places. -/
def outline? : Member → Option (String × Option TypeRef)
  | .field _ decl => some (decl.name, decl.type.map TypeRef.erase)
  | _ => none

end Member

namespace FieldMember

def outline (entry : FieldMember) : String × Option TypeRef :=
  (entry.field.name, entry.field.type.map TypeRef.erase)

end FieldMember

namespace Class

theorem mem_fieldsFrom {index : Nat} {members : List Member} {entry : FieldMember} :
    entry ∈ fieldsFrom index members ↔ ∃ offset, entry.index = index + offset ∧
      members[offset]? = some (.field entry.span entry.field) := by
  induction members generalizing index with
  | nil => simp [fieldsFrom]
  | cons member rest ih =>
      have split : (∃ offset, entry.index = index + offset ∧
            (member :: rest)[offset]? = some (.field entry.span entry.field)) ↔
          (entry.index = index ∧ member = .field entry.span entry.field) ∨
            entry ∈ fieldsFrom (index + 1) rest := by
        rw [ih]
        constructor
        · rintro ⟨_ | offset, place, held⟩
          · exact .inl ⟨place, Option.some.inj held⟩
          · exact .inr ⟨offset, by omega, held⟩
        · rintro (⟨place, rfl⟩ | ⟨offset, place, held⟩)
          · exact ⟨0, place, rfl⟩
          · exact ⟨offset + 1, by omega, held⟩
      rw [split]
      obtain ⟨place, decl, span⟩ := entry
      cases member <;> simp [fieldsFrom, eq_comm, and_comm]

/-- The fields of a class are its direct members of that kind, each under its index. -/
theorem mem_fields {decl : Class} {entry : FieldMember} :
    entry ∈ decl.fields ↔ decl.members[entry.index]? = some (.field entry.span entry.field) := by
  rw [fields, mem_fieldsFrom]
  simp

/-- The fields of a class come in the order of their indices. -/
theorem fields_rising (decl : Class) :
    decl.fields.Pairwise fun first second => first.index < second.index := by
  have behind (index : Nat) (members : List Member) :
      (fieldsFrom index members).Pairwise fun first second => first.index < second.index := by
    induction members generalizing index with
    | nil => exact .nil
    | cons member rest ih =>
        have later := ih (index + 1)
        cases member with
        | field span decl =>
            refine List.pairwise_cons.mpr ⟨fun entry inside => ?_, later⟩
            obtain ⟨offset, place, _⟩ := mem_fieldsFrom.mp inside
            show index < entry.index
            omega
        | _ => exact later
  exact behind 0 decl.members

/-- The names and types of the fields, without places. -/
def outlines (decl : Class) : List (String × Option TypeRef) := decl.fields.map FieldMember.outline

theorem outlines_eq (decl : Class) : decl.outlines = decl.members.filterMap Member.outline? := by
  have inside (index : Nat) (members : List Member) :
      (fieldsFrom index members).map FieldMember.outline = members.filterMap Member.outline? := by
    induction members generalizing index with
    | nil => rfl
    | cons member rest ih =>
        cases member <;>
          simp [fieldsFrom, List.filterMap_cons, Member.outline?, FieldMember.outline, ih]
  exact inside 0 decl.members

/-- A change that goes through the members of a class one by one and keeps what they are. -/
structure Memberwise (change : Class → Class) (alter : Member → Member)
    (rewrite : Method → Method) : Prop where
  name : ∀ decl, (change decl).name = decl.name
  members : ∀ decl, (change decl).members = decl.members.map alter
  nested : ∀ member, (alter member).nested? = member.nested?.map change
  method : ∀ member, (alter member).method? = member.method?.map rewrite
  outline : ∀ member, (alter member).outline? = member.outline?

namespace Memberwise

variable {change : Class → Class} {alter : Member → Member} {rewrite : Method → Method}

theorem descend? (memberwise : Memberwise change alter rewrite) (path : Path) (decl : Class) :
    (change decl).descend? path = (decl.descend? path).map change := by
  induction path generalizing decl with
  | nil => rfl
  | cons index path ih =>
      rw [descend?_cons, descend?_cons, memberwise.members, List.getElem?_map]
      cases decl.members[index]? with
      | none => rfl
      | some member =>
          rw [Option.map_some, Option.bind_some, Option.bind_some, memberwise.nested]
          cases member.nested? with
          | none => rfl
          | some nested => exact ih nested

theorem methods (memberwise : Memberwise change alter rewrite) (decl : Class) :
    (change decl).methods = decl.methods.map rewrite := by
  have each : Member.method? ∘ alter = fun member => member.method?.map rewrite :=
    funext memberwise.method
  rw [Class.methods, Class.methods, memberwise.members, List.filterMap_map, each, List.map_filterMap]

theorem outlines (memberwise : Memberwise change alter rewrite) (decl : Class) :
    (change decl).outlines = decl.outlines := by
  have each : Member.outline? ∘ alter = Member.outline? := funext memberwise.outline
  rw [outlines_eq, outlines_eq, memberwise.members, List.filterMap_map, each]

theorem classAt? (memberwise : Memberwise change alter rewrite) {declare : Declaration → Declaration}
    (classes : ∀ declaration, (declare declaration).class? = declaration.class?.map change)
    (program : Program) (path : Path) :
    (Program.mk (program.declarations.map declare)).classAt? path =
      (program.classAt? path).map change := by
  cases path with
  | nil => rfl
  | cons index path =>
      rw [Program.classAt?_cons, Program.classAt?_cons, List.getElem?_map]
      cases program.declarations[index]? with
      | none => rfl
      | some declaration =>
          rw [Option.map_some, Option.bind_some, Option.bind_some, classes]
          cases declaration.class? with
          | none => rfl
          | some decl => exact memberwise.descend? path decl

end Memberwise

theorem memberwise_erase : Memberwise erase Member.erase Method.erase where
  name decl := by cases decl; simp
  members decl := by cases decl; simp
  nested member := by cases member <;> simp [Member.nested?]
  method member := by cases member <;> simp [Member.method?]
  outline member := by
    cases member with
    | field span decl =>
        obtain ⟨tags, isPublic, name, type, default⟩ := decl
        cases type <;> simp [Member.outline?, TypeRef.erase_erase]
    | _ => simp [Member.outline?]

theorem memberwise_spelled : Memberwise spelled Member.spelled Method.spelled where
  name decl := by rw [spelled_eq]
  members decl := by rw [spelled_eq]
  nested member := by cases member <;> simp [Member.nested?, Member.spelled]
  method member := by cases member <;> simp [Member.method?, Member.spelled]
  outline member := by
    cases member with
    | field span decl =>
        obtain ⟨tags, isPublic, name, type, default⟩ := decl
        cases type <;> simp [Member.outline?, Member.spelled, Field.spelled, TypeRef.erase_erase]
    | _ => simp [Member.outline?, Member.spelled]

end Class

namespace Program

theorem classAt?_erase (program : Program) (path : Path) :
    program.erase.classAt? path = (program.classAt? path).map Class.erase :=
  Class.memberwise_erase.classAt? (fun declaration => by cases declaration <;> rfl) program path

theorem classAt?_spelled (program : Program) (path : Path) :
    program.spelled.classAt? path = (program.classAt? path).map Class.spelled :=
  Class.memberwise_spelled.classAt? (fun declaration => by cases declaration <;> rfl) program path

end Program

end DataClass
