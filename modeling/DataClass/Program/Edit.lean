import DataClass.Program.Path
namespace DataClass

/-! Editing a class by hand: its name, its tags, and the name or the type of one member. -/

/-- New contents for a member. -/
structure MemberEdit where
  index : Nat
  name : Option String
  /-- A new type for a field, where no type is a choice too. -/
  type : Option (Option TypeRef)

namespace MemberEdit

/-- The edited member. Only fields and methods can be edited. -/
def editMember? (edit : MemberEdit) : Member → Option Member
  | .field span decl =>
      some (.field span { decl with
        name := edit.name.getD decl.name, type := edit.type.getD decl.type })
  | .method span decl => some (.method span { decl with name := edit.name.getD decl.name })
  | _ => none

end MemberEdit

structure ClassEdit where
  rename : Option String
  /-- The path of a tag to add. -/
  addTag : Option (List String)
  /-- Whether to remove all tags in the end. -/
  clearTags : Bool
  member : Option MemberEdit

namespace ClassEdit

def editTags (edit : ClassEdit) (tags : List Tag) : List Tag :=
  if edit.clearTags then []
  else tags ++ (edit.addTag.map fun path => ⟨.origin, path⟩).toList

/-- The edited class, and whether the member that was to be edited could be. -/
def apply (edit : ClassEdit) (decl : Class) : Class × Bool :=
  let decl : Class :=
    { decl with name := edit.rename.getD decl.name, tags := edit.editTags decl.tags }
  match edit.member with
  | none => (decl, true)
  | some memberEdit =>
      match decl.members[memberEdit.index]?.bind memberEdit.editMember? with
      | none => (decl, false)
      | some member => ({ decl with members := decl.members.set memberEdit.index member }, true)

end ClassEdit

namespace Program

/-- Edit the class at an address, and tell whether all could be done. -/
def edit (program : Program) (path : Path) (edit : ClassEdit) : Program × Bool :=
  match program.classAt? path with
  | none => (program, false)
  | some decl => (program.updateAt (fun decl => (edit.apply decl).1) path, (edit.apply decl).2)

end Program

end DataClass
