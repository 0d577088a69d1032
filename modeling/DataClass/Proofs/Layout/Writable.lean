import DataClass.Proofs.Grammar.Shape
import DataClass.Proofs.Layout.Pieces
import DataClass.Proofs.Program.Extension
namespace DataClass

/-! Programs whose written form can be read: they have a shape, and all of their tokens can be found
in a text. Adding members that can be written keeps this. -/

open TokenKind

namespace TokenKind

@[simp] theorem isLexical_keyword (word : Keyword) : (keyword word).IsLexical := trivial

@[simp] theorem isLexical_punctuation (mark : Punctuation) : (punctuation mark).IsLexical := trivial

@[simp] theorem isLexical_operator (sign : Operator) : (operator sign).IsLexical := trivial

@[simp] theorem lexical_nil : Lexical [] := nofun

@[simp] theorem lexical_cons {kind : TokenKind} {kinds : List TokenKind} :
    Lexical (kind :: kinds) ↔ kind.IsLexical ∧ Lexical kinds := List.forall_mem_cons

@[simp] theorem lexical_append {first second : List TokenKind} :
    Lexical (first ++ second) ↔ Lexical first ∧ Lexical second := List.forall_mem_append

@[simp] theorem lexical_braced {body : List TokenKind} : Lexical (braced body) ↔ Lexical body := by
  simp [braced]

@[simp] theorem lexical_flatMap {α : Type} {values : List α} {kinds : α → List TokenKind} :
    Lexical (values.flatMap kinds) ↔ ∀ value ∈ values, Lexical (kinds value) := by
  simp only [Lexical, List.mem_flatMap, forall_exists_index, and_imp]
  exact ⟨fun all value inside kind held => all kind value inside held,
    fun each kind value inside held => each value inside kind held⟩

end TokenKind

structure Member.Writable (member : Member) : Prop where
  shaped : member.Shaped
  lexical : Lexical member.kinds

structure Class.Writable (decl : Class) : Prop where
  shaped : decl.Shaped
  lexical : Lexical decl.kinds

structure Declaration.Writable (declaration : Declaration) : Prop where
  shaped : declaration.Shaped
  lexical : Lexical declaration.kinds

structure Program.Writable (program : Program) : Prop where
  shaped : program.Shaped
  lexical : Lexical program.kinds

theorem Member.writable_nested (span : Span) {decl : Class} :
    (Member.nested span decl).Writable ↔ decl.Writable := by
  constructor
  · rintro ⟨shaped, lexical⟩
    cases shaped with
    | nested _ tagged inside => exact ⟨⟨tagged, inside⟩, by rwa [kinds] at lexical⟩
  · rintro ⟨⟨tagged, inside⟩, lexical⟩
    exact ⟨.nested span tagged inside, by rwa [kinds]⟩

namespace Class

/-- What stands in front of the members can be written. -/
structure Headed (decl : Class) : Prop where
  tagged : ∀ tag ∈ decl.tags, tag.Shaped
  modified : Lexical (modifiers decl.tags decl.isPublic)
  named : (TokenKind.identifier decl.name).IsLexical

theorem writable_iff {decl : Class} :
    decl.Writable ↔ decl.Headed ∧ ∀ member ∈ decl.members, member.Writable := by
  have lexical : Lexical decl.kinds ↔ Lexical (modifiers decl.tags decl.isPublic) ∧
      (TokenKind.identifier decl.name).IsLexical ∧ ∀ member ∈ decl.members, Lexical member.kinds := by
    simp [kinds_eq, Member.kindsAll_eq_flatMap]
  constructor
  · rintro ⟨⟨tagged, inside⟩, found⟩
    obtain ⟨modified, named, listed⟩ := lexical.mp found
    exact ⟨⟨tagged, modified, named⟩, fun member held => ⟨inside member held, listed member held⟩⟩
  · rintro ⟨⟨tagged, modified, named⟩, inside⟩
    exact ⟨⟨tagged, fun member held => (inside member held).shaped⟩,
      lexical.mpr ⟨modified, named, fun member held => (inside member held).lexical⟩⟩

end Class

/-- All that is added can be written. -/
def Additions.Writable (added : Additions) : Prop := ∀ path, ∀ member ∈ added path, member.Writable

theorem Additions.Writable.below {added : Additions} (writable : added.Writable) (path : Path) :
    (added.below path).Writable := fun rest => writable (path ++ rest)

mutual

theorem Member.Writable.extend (added : Additions) (additions : added.Writable) :
    (member : Member) → member.Writable → (member.extend added).Writable
  | .nested span decl, writable => by
      rw [Member.extend, Member.writable_nested]
      exact Class.Writable.extend added additions decl ((Member.writable_nested span).mp writable)
  | .field _ _, writable | .method _ _, writable | .constructor _ _, writable
  | .initializer _ _, writable => by
      rwa [Member.extend]

theorem Class.Writable.extend (added : Additions) (additions : added.Writable) :
    (decl : Class) → decl.Writable → (decl.extend added).Writable
  | ⟨tags, isPublic, name, members⟩, writable => by
      obtain ⟨headed, inside⟩ := Class.writable_iff.mp writable
      refine Class.writable_iff.mpr ⟨⟨headed.tagged, headed.modified, headed.named⟩, ?_⟩
      exact List.forall_mem_append.mpr
        ⟨Member.writable_extendFrom added additions 0 members inside, additions []⟩

theorem Member.writable_extendFrom (added : Additions) (additions : added.Writable) (index : Nat) :
    (members : List Member) → (∀ member ∈ members, member.Writable) →
    ∀ member ∈ Member.extendFrom added index members, member.Writable
  | [], _ => nofun
  | member :: rest, writable => by
      obtain ⟨here, later⟩ := List.forall_mem_cons.mp writable
      exact List.forall_mem_cons.mpr
        ⟨Member.Writable.extend (added.below [index]) (additions.below [index]) member here,
          Member.writable_extendFrom added additions (index + 1) rest later⟩

end

theorem Class.Writable.descend? {decl found : Class} {path : Path} (writable : decl.Writable)
    (reached : decl.descend? path = some found) : found.Writable := by
  induction path generalizing decl with
  | nil =>
      obtain rfl : decl = found := by simpa [Class.descend?] using reached
      exact writable
  | cons index path ih =>
      rw [Class.descend?_cons] at reached
      obtain ⟨nested, held, deeper⟩ := Option.bind_eq_some_iff.mp reached
      obtain ⟨member, listed, isNested⟩ := Option.bind_eq_some_iff.mp held
      have there := (Class.writable_iff.mp writable).2 member (List.mem_of_getElem? listed)
      cases member with
      | nested span inner =>
          obtain rfl : inner = nested := by simpa [Member.nested?] using isNested
          exact ih ((Member.writable_nested span).mp there) deeper
      | _ => simp [Member.nested?] at isNested

namespace Declaration

theorem writable_type (span : Span) {decl : Class} :
    (Declaration.type span decl).Writable ↔ decl.Writable :=
  ⟨fun ⟨shaped, lexical⟩ => ⟨shaped, lexical⟩, fun ⟨shaped, lexical⟩ => ⟨shaped, lexical⟩⟩

end Declaration

namespace Program

theorem writable_iff {program : Program} :
    program.Writable ↔ ∀ declaration ∈ program.declarations, declaration.Writable := by
  have lexical : Lexical program.kinds ↔
      ∀ declaration ∈ program.declarations, Lexical declaration.kinds := lexical_flatMap
  constructor
  · rintro ⟨shaped, found⟩ declaration inside
    exact ⟨shaped declaration inside, lexical.mp found declaration inside⟩
  · intro each
    exact ⟨fun declaration inside => (each declaration inside).shaped,
      lexical.mpr fun declaration inside => (each declaration inside).lexical⟩

variable {program : Program}

theorem Writable.extend {added : Additions} (writable : program.Writable)
    (additions : added.Writable) : (program.extend added).Writable := by
  refine writable_iff.mpr fun declaration inside => ?_
  obtain ⟨index, bound, rfl⟩ := List.mem_mapIdx.mp inside
  have there := writable_iff.mp writable _ (List.getElem_mem bound)
  cases held : program.declarations[index] with
  | type span decl =>
      rw [held, Declaration.writable_type] at there
      exact (Declaration.writable_type span).mpr
        (there.extend _ (additions.below [index]))
  | importPath span path => rwa [held] at there
  | function span decl => rwa [held] at there

theorem Writable.classAt? {path : Path} {decl : Class} (writable : program.Writable)
    (reached : program.classAt? path = some decl) : decl.Writable := by
  cases path with
  | nil => cases reached
  | cons index path =>
      rw [classAt?_cons] at reached
      obtain ⟨outer, held, deeper⟩ := Option.bind_eq_some_iff.mp reached
      obtain ⟨declaration, listed, isClass⟩ := Option.bind_eq_some_iff.mp held
      have there := writable_iff.mp writable declaration (List.mem_of_getElem? listed)
      cases declaration with
      | type span inner =>
          obtain rfl : inner = outer := by simpa [Declaration.class?] using isClass
          exact ((Declaration.writable_type span).mp there).descend? deeper
      | _ => simp [Declaration.class?] at isClass

end Program

end DataClass
