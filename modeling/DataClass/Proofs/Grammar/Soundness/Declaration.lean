import DataClass.Grammar.Declaration
import DataClass.Proofs.Grammar.Soundness.Stmt
namespace DataClass

namespace TokenKind

theorem Keeps.returns {written : Option TypeRef} {params : List (List TokenKind)}
    {inside body : List TokenKind} (span : Span) (kept : Keeps inside body) :
    Keeps (parenthesized params ++ (TypeRef.colonKinds written ++ TokenKind.braced inside))
      (parenthesized params ++
        ((written.getD (.void span)).returnKinds ++ TokenKind.braced body)) := by
  cases written with
  | none => exact (Keeps.same _).append kept.braced
  | some type =>
      cases type with
      | void place =>
          have left := (Keeps.same (.punctuation .leftParen :: separated params)).append
            (Keeps.returnsNothing.append (kept.append (.same [.punctuation .rightBrace])))
          simpa [parenthesized, TokenKind.braced, TypeRef.colonKinds, TypeRef.kinds, TypeRef.returnKinds,
            TypeRef.isVoid] using left
      | _ => exact (Keeps.same _).append ((Keeps.same _).append kept.braced)

end TokenKind

namespace Grammar.Reader

open TokenKind (Keeps)

/-! Members, declarations and programs that were read without a fault have a shape, and they are
written with the tokens that were taken, but for what has a default or means nothing. -/

variable {cursor : Cursor}

theorem consumes_tags (fuel : Nat) :
    Consumes (tags fuel) cursor
      (Exactly (fun marks => ∀ tag ∈ marks, tag.Shaped) Tag.kindsAll) := by
  induction fuel generalizing cursor with
  | zero => exact consumes_pure ⟨by simp, rfl⟩
  | succ fuel ih =>
      refine consumes_current ?_
      split
      · next mark =>
          apply (consumes_advance mark (by simp)).bind
          intro _ _ _ first
          apply consumes_dottedPath.bind
          intro path _ _ named
          apply consumes_spanFrom _
          intro span
          refine ih.bind fun marks _ _ later => consumes_pure ⟨?_, ?_⟩
          · exact List.forall_mem_cons.mpr ⟨named.1, later.1⟩
          · rw [first, named.2, later.2, Tag.kindsAll_cons]
            simp
      · exact consumes_pure ⟨by simp, rfl⟩

/-- The modifiers that were read from some tokens. -/
def ReadModifiers (front : Modifiers) (taken : List TokenKind) : Prop :=
  (∀ tag ∈ front.tags, tag.Shaped) ∧
    ∃ shown, taken = Tag.kindsAll front.tags ++ shown ∧
      (front.isPublic = true ∧ shown = [.keyword .pubWord] ∨
        front.isPublic = false ∧ (shown = [] ∨ shown = [.keyword .privWord]))

theorem consumes_modifiers : Consumes modifiers cursor ReadModifiers := by
  unfold modifiers
  refine consumes_current (consumes_remaining ((consumes_tags _).bind fun marks _ _ read => ?_))
  refine consumes_accept_bind (by simp) (fun _ => consumes_pure ?_) ?_
  · exact ⟨read.1, _, by rw [read.2], .inl ⟨rfl, rfl⟩⟩
  · refine (consumes_accept (by simp)).bind fun hidden _ _ same => consumes_pure ?_
    refine ⟨read.1, _, by rw [read.2, List.append_nil], .inr ⟨rfl, ?_⟩⟩
    subst same
    cases hidden with
    | true => exact .inr rfl
    | false => exact .inl rfl

namespace ReadModifiers

variable {front : Modifiers} {taken : List TokenKind}

theorem keeps (read : ReadModifiers front taken) :
    Keeps taken (TokenKind.modifiers front.tags front.isPublic) := by
  obtain ⟨_, shown, rfl, shows⟩ := read
  refine (Keeps.same _).append ?_
  rcases shows with ⟨isPublic, rfl⟩ | ⟨isPublic, rfl | rfl⟩ <;> rw [isPublic]
  · exact .same _
  · exact .same _
  · exact .hidden

theorem keeps_initializer (read : ReadModifiers front taken) (none : front.tags = []) :
    Keeps (taken ++ [.keyword .initWord]) [.keyword .initWord] := by
  obtain ⟨_, shown, rfl, shows⟩ := read
  rw [none]
  rcases shows with ⟨_, rfl⟩ | ⟨_, rfl | rfl⟩
  · exact .shownInitializer
  · exact .same _
  · exact Keeps.hidden.append (.same _)

theorem keeps_import (read : ReadModifiers front taken) (none : front.tags = []) :
    Keeps (taken ++ [.keyword .importWord]) [.keyword .importWord] := by
  obtain ⟨_, shown, rfl, shows⟩ := read
  rw [none]
  rcases shows with ⟨_, rfl⟩ | ⟨_, rfl | rfl⟩
  · exact .shownImport
  · exact .same _
  · exact Keeps.hidden.append (.same _)

end ReadModifiers

theorem gathers_withoutTags {α : Type} {following : Unit → Reader α}
    {wanted : α → List TokenKind → Prop} (place : String) (front : Modifiers)
    (later : front.tags = [] → Gathers (following ()) cursor wanted) :
    Gathers (withoutTags place front >>= following) cursor wanted := by
  unfold withoutTags
  split
  · next none => exact later none
  · intro result next read
    obtain ⟨_, _, failed, _⟩ := exists_first read
    cases failed

theorem sound_param : ∀ cursor, Consumes param cursor (Exactly Param.Shaped Param.kinds) := by
  intro cursor
  refine consumes_current (consumes_identifier.bind fun name _ _ named => ?_)
  apply (consumes_expect _ (by simp)).bind
  intro _ next _ colon
  refine (soundType_typeRef next).bind fun type _ _ typed => consumes_pure ⟨typed.1, ?_⟩
  rw [named, colon, typed.2, Param.kinds]
  simp

theorem consumes_params :
    Consumes params cursor (Exactly (fun given => ∀ param ∈ given, param.Shaped)
      fun given => TokenKind.parenthesized (given.map Param.kinds)) :=
  consumes_parenthesized _ _ sound_param

variable {front : Modifiers}

theorem gathers_method (tagged : ∀ tag ∈ front.tags, tag.Shaped) :
    Gathers (method front) cursor fun decl taken =>
      (decl.Shaped ∧ Keeps taken decl.bareKinds) ∧
        decl.tags = front.tags ∧ decl.isPublic = front.isPublic := by
  apply consumes_identifier.bind_gathers
  intro name _ _ named
  apply consumes_params.bind_gathers
  intro given _ _ params
  apply consumes_typeAfterColon.bind_gathers
  intro written _ _ typed
  refine gathers_previousSpan fun span => gathers_block.bind ?_
  intro body _ _
  apply gathers_pure
  rintro ⟨inside, rfl, good, kept⟩
  refine ⟨⟨⟨tagged, params.1, ?_, good⟩, ?_⟩, rfl, rfl⟩
  · cases written with
    | none => exact .void span
    | some type => exact typed.1 type rfl
  · rw [named, params.2, typed.2, List.append_nil]
    exact (kept.returns span).cons _

theorem gathers_constructor (tagged : ∀ tag ∈ front.tags, tag.Shaped) :
    Gathers (constructor front) cursor fun decl taken =>
      (decl.Shaped ∧ Keeps taken decl.bareKinds) ∧
        decl.tags = front.tags ∧ decl.isPublic = front.isPublic := by
  apply consumes_params.bind_gathers
  intro given _ _ params
  refine gathers_block.bind fun body _ _ => gathers_pure ?_
  rintro ⟨inside, rfl, good, kept⟩
  refine ⟨⟨⟨tagged, params.1, good⟩, ?_⟩, rfl, rfl⟩
  rw [params.2, List.append_nil]
  exact (Keeps.same _).append kept.braced

theorem gathers_field (tagged : ∀ tag ∈ front.tags, tag.Shaped) :
    Gathers (field front) cursor fun decl taken =>
      (decl.Shaped ∧ Keeps taken decl.bareKinds) ∧
        decl.tags = front.tags ∧ decl.isPublic = front.isPublic := by
  apply consumes_identifier.bind_gathers
  intro name _ _ named
  apply consumes_typeAfterColon.bind_gathers
  intro type _ _ typed
  apply consumes_expressionAfterEquals.bind_gathers
  intro default _ _ valued
  refine (consumes_expect _ (by simp)).bind_gathers fun _ _ _ last => gathers_pure ?_
  refine ⟨⟨⟨tagged, typed.1, valued.1⟩, ?_⟩, rfl, rfl⟩
  rw [named, typed.2, valued.2, last]
  simpa [Field.bareKinds] using Keeps.same _

def SoundMember (reader : Reader Member) : Prop :=
  ∀ cursor, Gathers reader cursor (Nearly Member.Shaped Member.kinds)

theorem gathers_classWith {member : Reader Member} (sound : SoundMember member)
    (tagged : ∀ tag ∈ front.tags, tag.Shaped) :
    Gathers (classWith member front) cursor fun decl taken =>
      (decl.Shaped ∧ Keeps taken
        (.identifier decl.name :: TokenKind.braced (Member.kindsAll decl.members))) ∧
        decl.tags = front.tags ∧ decl.isPublic = front.isPublic := by
  apply consumes_identifier.bind_gathers
  intro name _ _ named
  refine (gathers_braced _ _ _ sound).bind fun members _ _ => gathers_pure ?_
  rintro ⟨inside, rfl, good, kept⟩
  refine ⟨⟨⟨tagged, good⟩, ?_⟩, rfl, rfl⟩
  rw [named, List.append_nil, Member.kindsAll_eq_flatMap]
  exact kept.braced.cons _

theorem soundMember_memberAt (depth : Nat) : SoundMember (memberAt depth) := by
  induction depth with
  | zero => exact fun _ => (consumes_failExpected _).gathers
  | succ depth ih =>
      intro cursor
      refine consumes_modifiers.bind_gathers fun front next shown read => gathers_currentKind ?_
      split
      · next word =>
          apply (consumes_advance word (by simp)).bind_gathers
          intro _ _ _ first
          apply (gathers_method read.1).bind
          intro decl _ _
          refine gathers_spanFrom _ fun span => gathers_pure ?_
          rintro ⟨⟨good, kept⟩, tags, isPublic⟩
          refine ⟨.method span good, ?_⟩
          rw [first, Member.kinds, tags, isPublic, List.append_nil]
          exact read.keeps.append (kept.cons _)
      · next word =>
          apply (consumes_advance word (by simp)).bind_gathers
          intro _ _ _ first
          apply (gathers_constructor read.1).bind
          intro decl _ _
          refine gathers_spanFrom _ fun span => gathers_pure ?_
          rintro ⟨⟨good, kept⟩, tags, isPublic⟩
          refine ⟨.constructor span good, ?_⟩
          rw [first, Member.kinds, tags, isPublic, List.append_nil]
          exact read.keeps.append (kept.cons _)
      · next word =>
          apply gathers_withoutTags _ front
          intro none
          apply (consumes_advance word (by simp)).bind_gathers
          intro _ _ _ first
          apply gathers_block.bind
          intro body _ _
          refine gathers_spanFrom _ fun span => gathers_pure ?_
          rintro ⟨inside, same, good, kept⟩
          refine ⟨.initializer span good, ?_⟩
          have written := (read.keeps_initializer none).append kept.braced
          rw [first, same, Member.kinds]
          simpa using written
      · next word =>
          apply (consumes_advance word (by simp)).bind_gathers
          intro _ _ _ first
          apply (gathers_classWith ih read.1).bind
          intro decl _ _
          refine gathers_spanFrom _ fun span => gathers_pure ?_
          rintro ⟨⟨good, kept⟩, tags, isPublic⟩
          refine ⟨.nested span good.tagged good.inside, ?_⟩
          rw [first, Member.kinds, Class.kinds_eq, tags, isPublic, List.append_nil]
          exact read.keeps.append (kept.cons _)
      · apply (gathers_field read.1).bind
        intro decl _ _
        refine gathers_spanFrom _ fun span => gathers_pure ?_
        rintro ⟨⟨good, kept⟩, tags, isPublic⟩
        refine ⟨.field span good, ?_⟩
        rw [Member.kinds, tags, isPublic, List.append_nil]
        exact read.keeps.append kept
      · exact (consumes_failExpected _).gathers

theorem soundMember_member : SoundMember member := fun _ => by
  rw [member]
  exact gathers_remaining (soundMember_memberAt _ _)

theorem gathers_declaration :
    ∀ cursor, Gathers declaration cursor (Nearly Declaration.Shaped Declaration.kinds) := by
  intro cursor
  refine consumes_modifiers.bind_gathers fun front next shown read => gathers_currentKind ?_
  split
  · next word =>
      apply gathers_withoutTags _ front
      intro none
      apply (consumes_advance word (by simp)).bind_gathers
      intro _ _ _ first
      apply consumes_dottedPath.bind_gathers
      intro path _ _ named
      apply (consumes_expect _ (by simp)).bind_gathers
      intro _ _ _ last
      refine gathers_spanFrom _ fun span => gathers_pure ⟨named.1, ?_⟩
      have written := (read.keeps_import none).append
        (Keeps.same (TokenKind.pathKinds path ++ [.punctuation .semicolon]))
      rw [first, named.2, last, Declaration.kinds]
      simpa using written
  · next word =>
      apply (consumes_advance word (by simp)).bind_gathers
      intro _ _ _ first
      apply (gathers_classWith soundMember_member read.1).bind
      intro decl _ _
      refine gathers_spanFrom _ fun span => gathers_pure ?_
      rintro ⟨⟨good, kept⟩, tags, isPublic⟩
      refine ⟨good, ?_⟩
      rw [first, Declaration.kinds, Class.kinds_eq, tags, isPublic, List.append_nil]
      exact read.keeps.append (kept.cons _)
  · next word =>
      apply (consumes_advance word (by simp)).bind_gathers
      intro _ _ _ first
      apply (gathers_method read.1).bind
      intro decl _ _
      refine gathers_spanFrom _ fun span => gathers_pure ?_
      rintro ⟨⟨good, kept⟩, tags, isPublic⟩
      refine ⟨good, ?_⟩
      rw [first, Declaration.kinds, tags, isPublic, List.append_nil]
      exact read.keeps.append (kept.cons _)
  · exact (consumes_failExpected _).gathers

theorem gathers_declarations :
    Gathers declarations cursor
      (Nearly (fun declarations => ∀ decl ∈ declarations, decl.Shaped)
        fun declarations => declarations.flatMap Declaration.kinds) := by
  rw [declarations]
  exact gathers_remaining (gathers_parts _ gathers_declaration _)

end Grammar.Reader

namespace Program

open Grammar in
/-- A program that was read has a shape, and it is written with tokens from the front of those that
were read, but for what is left out. -/
theorem ofTokens_sound {tokens : List Token} {program : Program}
    (read : ofTokens tokens = .ok program) :
    program.Shaped ∧ ∃ taken rest, tokens.map Token.kind = taken ++ rest ∧
      TokenKind.Keeps taken program.kinds := by
  unfold ofTokens at read
  split at read
  · next declarations previous rest here =>
      cases read
      obtain ⟨_, taken, front, good, kept⟩ := Reader.gathers_declarations declarations _ here rfl
      exact ⟨good, taken, _, front, kept⟩
  · cases read
  · cases read

end Program

end DataClass
