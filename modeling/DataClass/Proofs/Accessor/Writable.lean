import DataClass.Proofs.Accessor.Rounds
import DataClass.Proofs.Layout.Writable
import Mathlib
namespace DataClass

/-! A round keeps a program one that can be written: the names of accessors are names, and all other
parts of an accessor come from its field. -/

open TokenKind

theorem isIdentifierStart_toUpper {char : Char} (start : isIdentifierStart char = true) :
    isIdentifierStart char.toUpper = true := by
  simp only [isIdentifierStart, Bool.or_eq_true, beq_iff_eq] at start ⊢
  rcases start with letter | rfl
  · exact .inl (char.isAlpha_toUpper_eq_isAlpha.trans letter)
  · exact .inr (by decide)

theorem isIdentifier_accessorName (kind : AccessorKind) {field : String}
    (valid : isIdentifier field = true) : isIdentifier (accessorName kind field) = true := by
  obtain ⟨first, others, chars, start, later⟩ := Token.exists_chars_of_isIdentifier valid
  have raised := Token.isIdentifierRest_of_start (isIdentifierStart_toUpper start)
  cases kind <;>
    simpa [isIdentifier, accessorName, AccessorKind.lead, titlecase, chars, titlecaseChars,
      isIdentifierChars, raised] using ⟨by decide, by decide, by decide, later⟩

/-- No reserved word begins like the name of an accessor. -/
theorem ofSpelling?_accessorName (kind : AccessorKind) (field : String) :
    Keyword.ofSpelling? (accessorName kind field) = none := by
  have apart {spelling : String} (other : spelling.toList.take 3 ≠ kind.lead.toList) :
      spelling ≠ accessorName kind field := by
    rintro rfl
    cases kind <;> simp [accessorName, AccessorKind.lead] at other
  have canonical (word : Keyword) : word.canonical ≠ accessorName kind field :=
    apart (by cases word <;> cases kind <;> decide)
  have aliases (word : Keyword) : accessorName kind field ∉ word.aliases := fun listed =>
    have other : ∀ spelling ∈ word.aliases, spelling.toList.take 3 ≠ kind.lead.toList := by
      cases word <;> cases kind <;> decide
    apart (other _ listed) rfl
  have first : Keyword.all.find? (·.canonical == accessorName kind field) = none := by
    simpa [List.find?_eq_none] using fun word _ => canonical word
  have second : Keyword.all.find? (·.aliases.contains (accessorName kind field)) = none := by
    simpa [List.find?_eq_none] using fun word _ => aliases word
  rw [Keyword.ofSpelling?, first, second]

namespace Class

theorem mem_members_of_mem_fields {decl : Class} {entry : FieldMember}
    (inside : entry ∈ decl.fields) : ∃ span, Member.field span entry.field ∈ decl.members := by
  have found (index : Nat) (members : List Member) (held : entry ∈ fieldsFrom index members) :
      ∃ span, Member.field span entry.field ∈ members := by
    induction members generalizing index with
    | nil => cases held
    | cons member rest ih =>
        cases member with
        | field span decl =>
            rcases List.mem_cons.mp held with rfl | later
            · exact ⟨span, List.mem_cons_self⟩
            · obtain ⟨place, listed⟩ := ih (index + 1) later
              exact ⟨place, List.mem_cons_of_mem _ listed⟩
        | _ =>
            obtain ⟨place, listed⟩ := ih (index + 1) held
            exact ⟨place, List.mem_cons_of_mem _ listed⟩
  exact found 0 decl.members inside

end Class

namespace Accessor

/-- The parts of an accessor that come from its field. -/
structure Sourced (name : String) (type : TypeRef) : Prop where
  named : (TokenKind.identifier name).IsLexical
  value : type.isVoid = false
  shaped : type.Shaped
  typed : Lexical type.kinds

theorem Sourced.accessor {name : String} {type : TypeRef} (sourced : Sourced name type)
    (kind : AccessorKind) : (TokenKind.identifier (accessorName kind name)).IsLexical :=
  ⟨isIdentifier_accessorName kind sourced.named.1, ofSpelling?_accessorName kind name⟩

theorem shaped_thisField (name : String) (span : Span) : (thisField name span).Shaped :=
  .field span name (Nat.lt_succ_self _) (.this span)

theorem writable_getter {name : String} {type : TypeRef} (sourced : Sourced name type)
    (span : Span) : (Member.method span (getter name type span)).Writable := by
  constructor
  · refine .method span ⟨nofun, nofun, sourced.shaped, ?_⟩
    refine List.forall_mem_singleton.mpr (.giveBack span ?_)
    rintro _ ⟨rfl⟩
    exact shaped_thisField name span
  · simp [Member.kinds, getter, modifiers, Tag.kindsAll, visibility, Method.bareKinds,
      parenthesized, separated, TypeRef.returnKinds, Stmt.bodyKinds, Stmt.kinds, Expr.optionKinds,
      thisField, Expr.kinds, sourced.value, sourced.typed, sourced.named, sourced.accessor]

theorem writable_setter {name : String} {type : TypeRef} (sourced : Sourced name type)
    (span : Span) : (Member.method span (setter name type span)).Writable := by
  constructor
  · refine .method span ⟨nofun, List.forall_mem_singleton.mpr sourced.shaped, .void span, ?_⟩
    exact List.forall_mem_singleton.mpr
      (.assign span rfl (shaped_thisField name span) (.ident span name))
  · simp [Member.kinds, setter, modifiers, Tag.kindsAll, visibility, Method.bareKinds, Param.kinds,
      parenthesized, separated, afterCommas, TypeRef.returnKinds, TypeRef.isVoid, Stmt.bodyKinds,
      Stmt.kinds, thisField, Expr.kinds, sourced.typed, sourced.named, sourced.accessor]

theorem sourced_of_synthesize {decl : Class} (writable : decl.Writable) {entry : FieldMember}
    (inside : entry ∈ decl.fields) {pair : Pair}
    (made : synthesize decl.name entry.field entry.span = .ok pair) :
    ∃ type, entry.field.type = some type ∧ Sourced entry.field.name type ∧
      pair = ⟨getter entry.field.name type entry.span, setter entry.field.name type entry.span⟩ := by
  obtain ⟨type, _, typed, value, same⟩ := synthesize_eq_ok made
  obtain ⟨span, member⟩ := Class.mem_members_of_mem_fields inside
  obtain ⟨shaped, lexical⟩ := (Class.writable_iff.mp writable).2 _ member
  rw [Member.kinds] at lexical
  have bare : Lexical entry.field.bareKinds := lexical.right
  rw [Field.bareKinds, typed] at bare
  cases shaped with
  | field _ inside => exact ⟨type, typed, ⟨bare.head, value, inside.typed type typed,
      bare.tail.left.tail⟩, same⟩

theorem additions_writable {program : Program} (writable : program.Writable) (settings : Settings)
    (elements : List TaggedElement) : (additions settings program elements).Writable := by
  intro path member inside
  obtain ⟨decl, reached, entry, held, pair, made, method, listed, rfl⟩ := mem_additions inside
  obtain ⟨type, _, sourced, rfl⟩ := sourced_of_synthesize (writable.classAt? reached) held made
  simp only [Pair.methods, List.mem_cons, List.not_mem_nil, or_false] at listed
  rcases listed with rfl | rfl
  · exact writable_getter sourced entry.span
  · exact writable_setter sourced entry.span

theorem writable_round {program : Program} (writable : program.Writable) (settings : Settings)
    (elements : List TaggedElement) : (round settings program elements).program.Writable := by
  rw [round_program]
  exact writable.extend (additions_writable writable settings elements)

end Accessor

end DataClass
