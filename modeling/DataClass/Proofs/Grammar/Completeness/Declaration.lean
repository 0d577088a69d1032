import DataClass.Grammar.Declaration
import DataClass.Proofs.Grammar.Completeness.Stmt
namespace DataClass

namespace Grammar.Modifiers

/-- The modifiers that stand in front of a declaration with these tags and this visibility. -/
structure Fit (modifiers : Modifiers) (tags : List Tag) (isPublic : Bool) : Prop where
  tags : modifiers.tags.map Tag.erase = tags.map Tag.erase
  isPublic : modifiers.isPublic = isPublic

end Grammar.Modifiers

namespace Grammar.Reader

/-! Members, declarations and programs that have a shape are read from the tokens they are written
with. -/

variable {cursor : Cursor} {rest : List TokenKind}

theorem takes_tags {marks : List Tag} {fuel : Nat} (shaped : ∀ tag ∈ marks, tag.Shaped)
    (stop : rest.head?.getD .endOfFile ≠ .punctuation .at)
    (point : rest.head?.getD .endOfFile ≠ .punctuation .dot)
    (enough : cursor.kinds.length ≤ fuel) (ahead : cursor.kinds = Tag.kindsAll marks ++ rest) :
    Takes (tags fuel) cursor rest (·.map Tag.erase = marks.map Tag.erase) := by
  induction fuel generalizing marks cursor with
  | zero =>
      obtain rfl : marks = [] := by
        cases marks with
        | nil => rfl
        | cons mark marks => simp [ahead, Tag.kindsAll_cons] at enough
      exact takes_pure ahead rfl
  | succ fuel ih =>
      change Takes (if cursor.current.kind = .punctuation .at then _ else _) cursor rest _
      cases marks with
      | nil =>
          rw [Cursor.current_kind, show cursor.kinds = rest from ahead, if_neg stop]
          exact takes_pure ahead rfl
      | cons mark marks =>
          rw [Tag.kindsAll_cons, List.cons_append, List.append_assoc] at ahead
          have pathEnds : (Tag.kindsAll marks ++ rest).head?.getD .endOfFile ≠
              .punctuation .dot := by
            cases marks with
            | nil => exact point
            | cons mark marks => simp [Tag.kindsAll_cons]
          rw [Cursor.current_kind_cons ahead, if_pos rfl]
          apply (takes_advance ahead (by simp)).bind
          intro _ next left _
          apply (takes_dottedPath (shaped mark List.mem_cons_self) left pathEnds).bind
          intro _ after behind path
          refine (ih (fun tag inside => shaped tag (List.mem_cons_of_mem _ inside)) ?_ behind).map
            fun _ later => ?_
          · rw [ahead, List.length_cons, List.length_append] at enough
            rw [behind]
            omega
          · obtain ⟨span, names⟩ := mark
            rw [List.map_cons, List.map_cons, later, path, Tag.erase_mk, Tag.erase_mk]

/-- What is written behind modifiers. -/
structure EndsModifiers (rest : List TokenKind) : Prop where
  mark : rest.head?.getD .endOfFile ≠ .punctuation .at
  point : rest.head?.getD .endOfFile ≠ .punctuation .dot
  shown : rest.head?.getD .endOfFile ≠ .keyword .pubWord
  hidden : rest.head?.getD .endOfFile ≠ .keyword .privWord

theorem takes_modifiers {marks : List Tag} {isPublic : Bool}
    (shaped : ∀ tag ∈ marks, tag.Shaped) (ends : EndsModifiers rest)
    (ahead : cursor.kinds = TokenKind.modifiers marks isPublic ++ rest) :
    Takes modifiers cursor rest (·.Fit marks isPublic) := by
  rw [TokenKind.modifiers, List.append_assoc] at ahead
  unfold modifiers
  refine takes_current (takes_remaining ((takes_tags shaped ?_ ?_
    (Nat.le_of_eq cursor.length_kinds) ahead).bind fun _ next left read => ?_))
  · cases isPublic with
    | true => simp [TokenKind.visibility]
    | false => exact ends.mark
  · cases isPublic with
    | true => simp [TokenKind.visibility]
    | false => exact ends.point
  · cases isPublic with
    | true => exact takes_accept_bind left (by simp) fun _ left => takes_pure left ⟨read, rfl⟩
    | false =>
        apply takes_decline_bind left ends.shown
        intro _ left
        exact (takes_decline left ends.hidden).bind fun _ _ left _ => takes_pure left ⟨read, rfl⟩

theorem takes_modifiers_none (ends : EndsModifiers rest) (ahead : cursor.kinds = rest) :
    Takes modifiers cursor rest (·.tags = []) := by
  have none : ∀ tag ∈ ([] : List Tag), tag.Shaped := by simp
  have ahead : cursor.kinds = TokenKind.modifiers [] false ++ rest := ahead
  exact (takes_modifiers none ends ahead).weaken fun front fit => List.map_eq_nil_iff.mp fit.tags

theorem takes_withoutTags (place : String) {front : Modifiers} (none : front.tags = [])
    (ahead : cursor.kinds = rest) :
    Takes (withoutTags place front) cursor rest fun _ => True := by
  rw [withoutTags, none]
  exact takes_pure ahead trivial

theorem reads_param {given : Param} (shaped : given.Shaped) :
    Reads param Param.kinds Param.erase EndsType given := by
  intro cursor rest ends ahead
  apply (takes_identifier ahead).bind
  intro _ next left named
  apply (takes_expect _ left (by simp)).bind
  intro _ next left _
  apply (reads_typeRef shaped next rest ends left).bind
  intro _ next left typed
  refine takes_pure left ?_
  obtain ⟨span, name, type⟩ := given
  rw [Param.erase_mk, Param.erase_mk, named, typed]

theorem takes_params {given : List Param} (shaped : ∀ param ∈ given, param.Shaped)
    (ahead : cursor.kinds = TokenKind.parenthesized (given.map Param.kinds) ++ rest) :
    Takes params cursor rest (·.map Param.erase = given.map Param.erase) :=
  takes_parenthesized _ _ endsType_comma (fun _ => by constructor <;> simp)
    (fun _ _ _ => by simp [Param.kinds]) (fun param inside => reads_param (shaped param inside))
    ahead

theorem takes_returnType {returnType : TypeRef} (shaped : returnType.Shaped) (ends : EndsType rest)
    (colon : rest.head?.getD .endOfFile ≠ .punctuation .colon)
    (ahead : cursor.kinds = returnType.returnKinds ++ rest) :
    Takes typeAfterColon cursor rest
      fun written => ∀ span, (written.getD (.void span)).erase = returnType.erase := by
  by_cases nothing : returnType.isVoid = true
  · rw [TypeRef.returnKinds, if_pos nothing] at ahead
    have typed : ∀ found ∈ (none : Option TypeRef), found.Shaped := by simp
    apply (takes_typeAfterColon typed ends colon ahead).weaken
    intro written read span
    obtain rfl : written = none := by simpa using read
    cases returnType with
    | void => rfl
    | _ => cases nothing
  · rw [TypeRef.returnKinds, if_neg nothing] at ahead
    have typed : ∀ found ∈ some returnType, found.Shaped := by simpa using shaped
    apply (takes_typeAfterColon typed ends colon ahead).weaken
    intro written read span
    obtain ⟨found, rfl, same⟩ := Option.map_eq_some_iff.mp read
    exact same

theorem takes_method {decl : Method} {front : Modifiers} (shaped : decl.Shaped)
    (fit : front.Fit decl.tags decl.isPublic) (ahead : cursor.kinds = decl.bareKinds ++ rest) :
    Takes (method front) cursor rest (·.erase = decl.erase) := by
  obtain ⟨tags, isPublic, name, given, returnType, body⟩ := decl
  simp only [Method.bareKinds, List.cons_append, List.append_assoc] at ahead
  have typeEnds : EndsType (TokenKind.braced (Stmt.bodyKinds body) ++ rest) := by
    constructor <;> simp [TokenKind.braced]
  apply (takes_identifier ahead).bind
  intro _ next left named
  apply (takes_params shaped.given left).bind
  intro _ next left params
  apply (takes_returnType shaped.typed typeEnds (by simp [TokenKind.braced]) left).bind
  intro written next left typed
  refine (takes_block shaped.inside left).bind fun _ _ left inside => takes_pure left ?_
  rw [Method.erase_mk, Method.erase_mk, fit.tags, fit.isPublic, named, params, typed, inside]

theorem takes_constructor {decl : Constructor} {front : Modifiers} (shaped : decl.Shaped)
    (fit : front.Fit decl.tags decl.isPublic) (ahead : cursor.kinds = decl.bareKinds ++ rest) :
    Takes (constructor front) cursor rest (·.erase = decl.erase) := by
  obtain ⟨tags, isPublic, given, body⟩ := decl
  simp only [Constructor.bareKinds, List.append_assoc] at ahead
  apply (takes_params shaped.given ahead).bind
  intro _ next left params
  refine (takes_block shaped.inside left).bind fun _ _ left inside => takes_pure left ?_
  rw [Constructor.erase_mk, Constructor.erase_mk, fit.tags, fit.isPublic, params, inside]

theorem takes_field {decl : Field} {front : Modifiers} (shaped : decl.Shaped)
    (fit : front.Fit decl.tags decl.isPublic) (ahead : cursor.kinds = decl.bareKinds ++ rest) :
    Takes (field front) cursor rest (·.erase = decl.erase) := by
  obtain ⟨tags, isPublic, name, type, default⟩ := decl
  simp only [Field.bareKinds, List.cons_append, List.append_assoc, List.nil_append] at ahead
  have typeEnds : EndsType (Expr.equalsKinds default ++ (.punctuation .semicolon :: rest)) := by
    cases default <;> constructor <;> simp [Expr.equalsKinds]
  have noColon : (Expr.equalsKinds default ++ (.punctuation .semicolon :: rest)).head?.getD
      .endOfFile ≠ .punctuation .colon := by
    cases default <;> simp [Expr.equalsKinds]
  apply (takes_identifier ahead).bind
  intro _ next left named
  apply (takes_typeAfterColon shaped.typed typeEnds noColon left).bind
  intro _ next left typed
  apply (takes_expressionAfterEquals shaped.valued (endsExpr_semicolon rest) (by simp) left).bind
  intro _ next left valued
  refine (takes_expect _ left (by simp)).bind fun _ _ left _ => takes_pure left ?_
  rw [Field.erase_mk, Field.erase_mk, fit.tags, fit.isPublic, named, typed, valued]

theorem takes_classWith {member : Reader Member} {decl : Class} {front : Modifiers}
    (reads : ∀ inside ∈ decl.members,
      Reads member Member.kinds Member.erase (fun _ => True) inside)
    (heads : ∀ inside ∈ decl.members, ∃ first others, inside.kinds = first :: others ∧
      Recovery.members.isEnd first = false)
    (fit : front.Fit decl.tags decl.isPublic)
    (ahead : cursor.kinds = .identifier decl.name ::
      (TokenKind.braced (Member.kindsAll decl.members) ++ rest)) :
    Takes (classWith member front) cursor rest (·.erase = decl.erase) := by
  obtain ⟨tags, isPublic, name, members⟩ := decl
  rw [Member.kindsAll_eq_flatMap] at ahead
  apply (takes_identifier ahead).bind
  intro _ next left named
  refine (takes_braced _ _ rfl (fun _ _ _ => trivial) (fun _ => trivial) heads reads left).bind
    fun _ _ left read => takes_pure left ?_
  rw [Class.erase_mk, Class.erase_mk, fit.tags, fit.isPublic, named, read]

/-- A body that is not read to its end begins with a tag, a modifier, a word or a name. -/
theorem exists_modifiers (tags : List Tag) (isPublic : Bool) {first : TokenKind}
    (others : List TokenKind) {recovery : Recovery} (more : recovery.isEnd first = false) :
    ∃ head later, TokenKind.modifiers tags isPublic ++ first :: others = head :: later ∧
      recovery.isEnd head = false := by
  cases tags with
  | cons tag tags => exact ⟨_, _, rfl, rfl⟩
  | nil =>
      cases isPublic with
      | true => exact ⟨_, _, rfl, rfl⟩
      | false => exact ⟨_, _, rfl, more⟩

theorem exists_kinds_member (member : Member) :
    ∃ first others, member.kinds = first :: others ∧ Recovery.members.isEnd first = false := by
  cases member with
  | initializer span body => exact ⟨_, _, rfl, rfl⟩
  | nested span decl =>
      rw [Member.kinds, Class.kinds_eq]
      exact exists_modifiers _ _ _ rfl
  | _ =>
      rw [Member.kinds]
      exact exists_modifiers _ _ _ rfl

theorem endsModifiers_keyword {word : Keyword} (rest : List TokenKind) (shown : word ≠ .pubWord)
    (hidden : word ≠ .privWord) : EndsModifiers (.keyword word :: rest) := by
  constructor <;> simp [shown, hidden]

theorem endsModifiers_identifier (name : String) (rest : List TokenKind) :
    EndsModifiers (.identifier name :: rest) := by
  constructor <;> simp

/-- Reading all members that are written with fewer tokens than a bound. -/
def ReadsMembers (reader : Reader Member) (bound : Nat) : Prop :=
  ∀ member : Member, member.Shaped → member.kinds.length < bound →
    Reads reader Member.kinds Member.erase (fun _ => True) member

theorem readsMembers_memberAt (depth : Nat) : ReadsMembers (memberAt depth) depth := by
  induction depth with
  | zero => exact fun _ _ small => absurd small (Nat.not_lt_zero _)
  | succ depth ih =>
      intro member shaped small cursor rest _ ahead
      rw [memberAt]
      cases shaped with
      | @field span decl inside =>
          rw [Member.kinds, List.append_assoc] at ahead
          apply (takes_modifiers inside.tagged (endsModifiers_identifier _ _) ahead).bind
          intro front next left fit
          refine takes_currentKind left ?_
          refine (takes_field inside fit left).bind fun _ next left read => takes_pure left ?_
          rw [Member.erase_field, Member.erase_field, read]
      | @method span decl inside =>
          rw [Member.kinds, List.append_assoc, List.cons_append] at ahead
          apply (takes_modifiers inside.tagged (endsModifiers_keyword _ (by simp) (by simp))
            ahead).bind
          intro front next left fit
          refine takes_currentKind left ?_
          apply (takes_advance left (by simp)).bind
          intro _ next left _
          refine (takes_method inside fit left).bind fun _ next left read => takes_pure left ?_
          rw [Member.erase_method, Member.erase_method, read]
      | @constructor span decl inside =>
          rw [Member.kinds, List.append_assoc, List.cons_append] at ahead
          apply (takes_modifiers inside.tagged (endsModifiers_keyword _ (by simp) (by simp))
            ahead).bind
          intro front next left fit
          refine takes_currentKind left ?_
          apply (takes_advance left (by simp)).bind
          intro _ next left _
          refine (takes_constructor inside fit left).bind fun _ next left read => takes_pure left ?_
          rw [Member.erase_constructor, Member.erase_constructor, read]
      | @initializer span body inside =>
          rw [Member.kinds, List.cons_append] at ahead
          apply (takes_modifiers_none (endsModifiers_keyword _ (by simp) (by simp)) ahead).bind
          intro front next left fit
          refine takes_currentKind left ?_
          apply (takes_withoutTags _ fit left).bind
          intro _ next left _
          apply (takes_advance left (by simp)).bind
          intro _ next left _
          refine (takes_block inside left).bind fun _ next left read => takes_pure left ?_
          rw [Member.erase_initializer, Member.erase_initializer, read]
      | @nested span decl tagged inside =>
          rw [Member.kinds, Class.kinds_eq] at small ahead
          rw [List.append_assoc, List.cons_append, List.cons_append] at ahead
          simp only [List.length_append, List.length_cons, TokenKind.braced,
            Member.kindsAll_eq_flatMap] at small
          apply (takes_modifiers tagged (endsModifiers_keyword _ (by simp) (by simp)) ahead).bind
          intro front next left fit
          refine takes_currentKind left ?_
          apply (takes_advance left (by simp)).bind
          intro _ next left _
          have reads : ∀ member ∈ decl.members,
              Reads (memberAt depth) Member.kinds Member.erase (fun _ => True) member :=
            fun member held => ih member (inside member held) (by
              have := TokenKind.length_le_flatMap Member.kinds held
              omega)
          refine (takes_classWith reads (fun member _ => exists_kinds_member member) fit left).bind
            fun _ next left read => takes_pure left ?_
          rw [Member.erase_nested, Member.erase_nested, read]

theorem reads_member {inside : Member} (shaped : inside.Shaped) :
    Reads member Member.kinds Member.erase (fun _ => True) inside := by
  intro cursor rest ends ahead
  have small : inside.kinds.length < cursor.rest.length + 1 := by
    rw [← cursor.length_kinds, ahead, List.length_append]
    omega
  rw [member]
  exact takes_remaining (readsMembers_memberAt _ inside shaped small cursor rest ends ahead)

theorem reads_declaration {decl : Declaration} (shaped : decl.Shaped) :
    Reads declaration Declaration.kinds Declaration.erase (fun _ => True) decl := by
  intro cursor rest _ ahead
  cases decl with
  | importPath span path =>
      simp only [Declaration.kinds, List.cons_append, List.append_assoc, List.nil_append] at ahead
      apply (takes_modifiers_none (endsModifiers_keyword _ (by simp) (by simp)) ahead).bind
      intro front next left fit
      refine takes_currentKind left ?_
      apply (takes_withoutTags _ fit left).bind
      intro _ next left _
      apply (takes_advance left (by simp)).bind
      intro _ next left _
      apply (takes_dottedPath shaped left (by simp)).bind
      intro _ next left read
      refine (takes_expect _ left (by simp)).bind fun _ next left _ => takes_pure left ?_
      rw [read]
      rfl
  | type span decl =>
      rw [Declaration.kinds, Class.kinds_eq, List.append_assoc, List.cons_append, List.cons_append]
        at ahead
      apply (takes_modifiers shaped.tagged (endsModifiers_keyword _ (by simp) (by simp))
        ahead).bind
      intro front next left fit
      refine takes_currentKind left ?_
      apply (takes_advance left (by simp)).bind
      intro _ next left _
      refine (takes_classWith (fun inside held => reads_member (shaped.inside inside held))
        (fun inside _ => exists_kinds_member inside) fit left).bind
        fun _ next left read => takes_pure left ?_
      exact congrArg (Declaration.type Span.origin) read
  | function span decl =>
      rw [Declaration.kinds, List.append_assoc, List.cons_append] at ahead
      apply (takes_modifiers shaped.tagged (endsModifiers_keyword _ (by simp) (by simp))
        ahead).bind
      intro front next left fit
      refine takes_currentKind left ?_
      apply (takes_advance left (by simp)).bind
      intro _ next left _
      refine (takes_method shaped fit left).bind fun _ next left read => takes_pure left ?_
      exact congrArg (Declaration.function Span.origin) read

theorem exists_kinds_declaration (decl : Declaration) :
    ∃ first others, decl.kinds = first :: others ∧
      Recovery.declarations.isEnd first = false := by
  cases decl with
  | importPath span path => exact ⟨_, _, rfl, rfl⟩
  | type span decl =>
      rw [Declaration.kinds, Class.kinds_eq]
      exact exists_modifiers _ _ _ rfl
  | function span decl =>
      rw [Declaration.kinds]
      exact exists_modifiers _ _ _ rfl

end Grammar.Reader

namespace Program

open Grammar in
/-- Tokens that a program with a shape is written with are read as that program, up to places. -/
theorem ofTokens_of_kinds {program : Program} (shaped : program.Shaped) {tokens : List Token}
    (kinds : tokens.map Token.kind = program.kinds ++ [.endOfFile]) :
    ∃ again, ofTokens tokens = .ok again ∧ again.erase = program.erase := by
  have taken : Reader.Takes Reader.declarations (Cursor.ofTokens tokens) [.endOfFile]
      (·.map Declaration.erase = program.declarations.map Declaration.erase) := by
    rw [Reader.declarations]
    exact Reader.takes_remaining (Reader.takes_parts (fun _ _ _ => trivial) trivial
      (fun decl _ => Reader.exists_kinds_declaration decl) rfl
      (fun decl inside => Reader.reads_declaration (shaped decl inside))
      (Nat.le_of_eq (Cursor.length_kinds _)) kinds)
  obtain ⟨declarations, ⟨previous, rest, reported⟩, read, _, quiet, same⟩ := taken
  obtain rfl : reported = [] := quiet
  exact ⟨⟨declarations⟩, by rw [ofTokens, read], congrArg Program.mk same⟩

end Program

end DataClass
