import DataClass.Proofs.Grammar.Cutting.Bodies
namespace DataClass.Grammar.Reader

/-! Statements, members and declarations in a text that is cut. Each of them begins where a part is to
be read, and it is complete behind a semicolon or a closing brace. -/

variable {stop : Nat} {old : List Token} {takes : Prop} {cursor : Cursor} {bound turns other : Nat}

theorem cuts_semicolon (expected : String) : Cuts stop old true false True
    (expect (.punctuation .semicolon) expected) (expect (.punctuation .semicolon) expected) cursor :=
  cuts_expect expected (by decide) rfl

/-- Going on behind the word that a part begins with. -/
theorem cuts_word {α : Type} {begun' : Bool} {word : Keyword} {one two : Unit → Reader α}
    (here : cursor.current.kind = .keyword word) (halts : Halts stop true begun' (two ()))
    (later : ∀ next, cursor.Onward next → Cuts stop old true begun' True (one ()) (two ()) next) :
    Cuts stop old true begun' takes (advance >>= one) (advance >>= two) cursor :=
  (cuts_advance here (by simp [Plain]) rfl).before (fun _ => halts) fun _ next onward _ =>
    later next onward

section Stmts

variable {inner inner' : Reader Stmt}

theorem cuts_declareFrom (start : Nat) :
    Cuts stop old true false True (declareFrom start) (declareFrom start) cursor := by
  refine cuts_identifier.beforeMissing (fun _ _ _ => ⟨_, rfl⟩) fun _ _ _ _ => ?_
  refine cuts_typeAfterColon.beforeMissing (fun _ _ _ => ⟨_, rfl⟩) fun _ _ _ _ => ?_
  refine cuts_expressionAfterEquals.beforeMissing (fun _ _ _ => ⟨_, rfl⟩) fun _ _ _ _ => ?_
  exact (cuts_semicolon _).placed

theorem cuts_giveBackFrom (start : Nat) :
    Cuts stop old true false True (giveBackFrom start) (giveBackFrom start) cursor := by
  refine cuts_accept false (by decide) rfl (halts_of_failure fun _ _ => ⟨_, rfl⟩)
    (fun _ _ _ => cuts_spanFrom _ fun _ => cuts_pure _) ?_
  refine cuts_expression.beforeMissing (fun _ _ _ => ⟨_, rfl⟩) fun _ _ _ _ => ?_
  exact (cuts_semicolon _).placed

theorem cuts_evaluateFrom (start : Nat) :
    Cuts stop old true false True (evaluateFrom start) (evaluateFrom start) cursor := by
  refine cuts_expression.beforeMissing (fun _ _ _ => ⟨_, rfl⟩) fun expr _ _ _ => ?_
  refine cuts_accept true (by decide) rfl (halts_of_failure fun _ _ => ⟨_, rfl⟩) (fun _ _ _ => ?_) ?_
  · split
    · exact cuts_expression.bind (fun _ => halts_of_failure fun _ _ => ⟨_, rfl⟩)
        (fun _ _ _ _ => (cuts_semicolon _).loosen.placed) False.elim
    · exact cuts_fail _
  · exact (cuts_semicolon _).placed

theorem cuts_blockWith (inside : CutsBelow stop old true false True bound inner inner')
    (within : cursor.rest.length ≤ bound) :
    Cuts stop old true false True (blockWith inner) (blockWith inner') cursor :=
  cuts_braced _ _ inside within

theorem cuts_elseWith (inside : CutsBelow stop old true false True bound inner inner')
    (within : cursor.rest.length ≤ bound) :
    Cuts stop old false false False (elseWith inner) (elseWith inner') cursor := by
  refine cuts_accept true (by decide) rfl (halts_pure none) (fun next _ shorter => ?_) (cuts_pure none)
  have within := Nat.lt_of_lt_of_le shorter within
  refine cuts_isNext (halts_of_failure fun _ _ => ⟨_, rfl⟩) ?_
  split
  · exact (inside.cuts next within).loosen.map
  · exact (cuts_blockWith inside (Nat.le_of_lt within)).loosen.map

theorem cuts_chooseFrom (inside : CutsBelow stop old true false True bound inner inner')
    (within : cursor.rest.length ≤ bound) (start : Nat) :
    Cuts stop old true false True (chooseFrom inner start) (chooseFrom inner' start) cursor := by
  refine cuts_expression.beforeMissing (fun _ _ _ => ⟨_, rfl⟩) fun _ next _ shorter => ?_
  have within := Nat.le_trans (Nat.le_of_lt (shorter trivial)) within
  refine (cuts_blockWith inside within).bind (fun _ => halts_of_value fun _ _ => ⟨_, rfl⟩)
    (fun _ later onward _ => ?_) id
  exact (cuts_elseWith inside (Nat.le_trans onward.length_le within)).placed

theorem cuts_repeatFrom (inside : CutsBelow stop old true false True bound inner inner')
    (within : cursor.rest.length ≤ bound) (start : Nat) :
    Cuts stop old true false True (repeatFrom inner start) (repeatFrom inner' start) cursor := by
  refine cuts_expression.beforeMissing (fun _ _ _ => ⟨_, rfl⟩) fun _ next _ shorter => ?_
  have within := Nat.le_trans (Nat.le_of_lt (shorter trivial)) within
  exact (cuts_blockWith inside within).placed

theorem halts_statementWith (inner : Reader Stmt) : Halts stop true false (statementWith inner) :=
  halts_of_failure fun _ _ => ⟨_, rfl⟩

theorem cuts_statementWith
    (inside : CutsBelow stop old true false True cursor.rest.length inner inner') :
    Cuts stop old true false True (statementWith inner) (statementWith inner') cursor := by
  refine cuts_current (halts_statementWith inner') ?_
  dsimp only
  split
  · next word =>
      exact cuts_word word (halts_of_failure fun _ _ => ⟨_, rfl⟩) fun _ _ => cuts_declareFrom _
  · next word =>
      exact cuts_word word (halts_of_failure fun _ _ => ⟨_, rfl⟩) fun _ _ => cuts_giveBackFrom _
  · next word =>
      exact cuts_word word (halts_of_failure fun _ _ => ⟨_, rfl⟩) fun _ onward =>
        cuts_chooseFrom inside onward.length_le _
  · next word =>
      exact cuts_word word (halts_of_failure fun _ _ => ⟨_, rfl⟩) fun _ onward =>
        cuts_repeatFrom inside onward.length_le _
  · exact cuts_evaluateFrom _

theorem cuts_statement : Cuts stop old true false True statement statement cursor :=
  cuts_remaining fun _ enough => cuts_layers rfl (fun _ => rfl) halts_statementWith
    (fun _ _ _ inside => cuts_statementWith inside) enough

theorem halts_statement : Halts stop true false statement := fun last reported =>
  halts_statementWith (statementAt 1) last reported

theorem cuts_block : Cuts stop old true false True block block cursor :=
  cuts_blockWith ⟨fun _ _ => cuts_statement, halts_statement⟩ (Nat.le_refl _)

end Stmts

section Members

variable {inner inner' : Reader Member}

theorem halts_tags (turns : Nat) : Halts stop true true (tags turns) := by
  cases turns with
  | zero => exact halts_pure []
  | succ turns => exact halts_of_value fun _ _ => ⟨[], rfl⟩

theorem cuts_tags (enough : cursor.Enough old [.ending stop] turns other) :
    Cuts stop old true true False (tags turns) (tags other) cursor := by
  refine cuts_loop (fun turns (_ : Unit) => tags turns) (fun other _ => tags other)
    (fun other _ => halts_tags other) (fun _ _ _ => ⟨_, cuts_pure []⟩)
    (fun turns other _ cursor _ again => ?_) enough (Nat.lt_succ_self _) ()
  refine cuts_current (halts_tags 1) ?_
  split
  · next sign =>
      have behind (start : Nat) (path : List String) : Halts stop true true
          (spanFrom start >>= fun span => tags other >>= fun later =>
            pure (Tag.mk span path :: later)) :=
        fun last reported => (halts_tags other last reported).bind fun _ => halts_pure _
      refine (cuts_advance sign (by decide) rfl).bind (fun _ => halts_of_failure fun _ _ => ⟨_, rfl⟩)
        (fun _ next _ shorter => ?_) False.elim
      refine cuts_dottedPath.bind (behind _) (fun path later onward further => ?_) False.elim
      refine cuts_spanFrom _ fun _ => ?_
      exact (again () later (Nat.lt_trans (further trivial) (shorter trivial))).map
  · exact cuts_pure []

/-- One word that may stand in front of a declaration. -/
theorem cuts_acceptance {kind : TokenKind} (plain : Plain kind) (seam : kind.isSeam = false) :
    Cuts stop old true true False (accept kind) (accept kind) cursor := by
  have same : (accept kind >>= fun here => if here = true then pure true else pure false) =
      accept kind := by
    funext cursor
    cases here : cursor.current.kind == kind <;> simp [bind, pure, accept, here]
  rw [← same]
  exact cuts_accept true plain seam (halts_pure false) (fun _ _ _ => cuts_pure true) (cuts_pure false)

theorem cuts_modifiers : Cuts stop old true true False modifiers modifiers cursor := by
  refine cuts_current (halts_of_value fun _ _ => ⟨_, rfl⟩) (cuts_remaining fun _ enough => ?_)
  refine (cuts_tags enough).bind (fun _ => halts_of_value fun _ _ => ⟨_, rfl⟩) (fun _ _ _ _ => ?_) id
  refine cuts_accept true (by decide) rfl (halts_of_value fun _ _ => ⟨_, rfl⟩)
    (fun _ _ _ => cuts_pure _) ?_
  exact (cuts_acceptance (by decide) rfl).map

theorem cuts_withoutTags {α : Type} {begun begun' : Bool} (place : String) (modifiers : Modifiers)
    {one two : Unit → Reader α}
    (later : Cuts stop old begun begun' takes (one ()) (two ()) cursor) :
    Cuts stop old begun begun' takes (withoutTags place modifiers >>= one)
      (withoutTags place modifiers >>= two) cursor := by
  unfold withoutTags
  split
  · exact later
  · next tag _ _ => exact cuts_fail (tagNotAllowed place tag.span)

theorem cuts_param : Cuts stop old true true True param param cursor := by
  refine cuts_current (halts_of_failure fun _ _ => ⟨_, rfl⟩) ?_
  refine cuts_identifier.beforeMissing (fun _ _ _ => ⟨_, rfl⟩) fun _ _ _ _ => ?_
  refine (cuts_expect _ (by decide) rfl).beforeMissing (fun _ _ _ => ⟨_, rfl⟩) fun _ _ _ _ => ?_
  exact cuts_typeRef.map

theorem cuts_params : Cuts stop old true true True params params cursor :=
  cuts_parenthesized _ _ ⟨fun _ _ => cuts_param, halts_of_failure fun _ _ => ⟨_, rfl⟩⟩ (Nat.le_refl _)

theorem cuts_method (modifiers : Modifiers) :
    Cuts stop old true false True (method modifiers) (method modifiers) cursor := by
  refine cuts_identifier.beforeMissing (fun _ _ _ => ⟨_, rfl⟩) fun _ _ _ _ => ?_
  refine cuts_params.beforeMissing (fun _ _ _ => ⟨_, rfl⟩) fun _ _ _ _ => ?_
  refine cuts_typeAfterColon.beforeMissing (fun _ _ _ => ⟨_, rfl⟩) fun _ _ _ _ =>
    cuts_previousSpan fun _ => ?_
  exact cuts_block.map

theorem cuts_constructor (modifiers : Modifiers) :
    Cuts stop old true false True (constructor modifiers) (constructor modifiers) cursor := by
  refine cuts_params.beforeMissing (fun _ _ _ => ⟨_, rfl⟩) fun _ _ _ _ => ?_
  exact cuts_block.map

theorem cuts_field (modifiers : Modifiers) :
    Cuts stop old true false True (field modifiers) (field modifiers) cursor := by
  refine cuts_identifier.beforeMissing (fun _ _ _ => ⟨_, rfl⟩) fun _ _ _ _ => ?_
  refine cuts_typeAfterColon.beforeMissing (fun _ _ _ => ⟨_, rfl⟩) fun _ _ _ _ => ?_
  refine cuts_expressionAfterEquals.beforeMissing (fun _ _ _ => ⟨_, rfl⟩) fun _ _ _ _ => ?_
  exact (cuts_semicolon _).map

theorem halts_classWith (inner : Reader Member) (modifiers : Modifiers) :
    Halts stop true false (classWith inner modifiers) :=
  halts_of_failure fun _ _ => ⟨_, rfl⟩

theorem cuts_classWith (inside : CutsBelow stop old true false True bound inner inner')
    (within : cursor.rest.length ≤ bound) (modifiers : Modifiers) :
    Cuts stop old true false True (classWith inner modifiers) (classWith inner' modifiers) cursor := by
  refine cuts_identifier.beforeMissing (fun _ _ _ => ⟨_, rfl⟩) fun _ _ onward _ => ?_
  exact (cuts_braced _ _ inside (Nat.le_trans onward.length_le within)).map

theorem halts_memberWith (inner : Reader Member) : Halts stop true false (memberWith inner) :=
  halts_of_failure fun _ _ => ⟨_, rfl⟩

theorem cuts_memberWith
    (inside : CutsBelow stop old true false True cursor.rest.length inner inner') :
    Cuts stop old true false True (memberWith inner) (memberWith inner') cursor := by
  refine cuts_modifiers.beforeMissing (fun _ _ _ => ⟨_, rfl⟩) fun modifiers next onward _ => ?_
  refine cuts_currentKind (halts_of_failure fun _ _ => ⟨_, rfl⟩) ?_
  split
  · next word =>
      refine cuts_word word (halts_of_failure fun _ _ => ⟨_, rfl⟩) fun _ _ => ?_
      exact (cuts_method modifiers).placed
  · next word =>
      refine cuts_word word (halts_of_failure fun _ _ => ⟨_, rfl⟩) fun _ _ => ?_
      exact (cuts_constructor modifiers).placed
  · next word =>
      refine cuts_withoutTags _ modifiers ?_
      refine cuts_word word (halts_of_failure fun _ _ => ⟨_, rfl⟩) fun _ _ => ?_
      exact cuts_block.placed
  · next word =>
      refine cuts_word word (halts_of_failure fun _ _ => ⟨_, rfl⟩) fun _ further => ?_
      exact (cuts_classWith inside (onward.trans further).length_le modifiers).placed
  · exact (cuts_field modifiers).placed
  · exact cuts_failExpected _

theorem cuts_member : Cuts stop old true false True member member cursor :=
  cuts_remaining fun _ enough => cuts_layers rfl (fun _ => rfl) halts_memberWith
    (fun _ _ _ inside => cuts_memberWith inside) enough

theorem halts_member : Halts stop true false member := fun last reported =>
  halts_memberWith (memberAt 1) last reported

theorem halts_declaration : Halts stop true false declaration :=
  halts_of_failure fun _ _ => ⟨_, rfl⟩

theorem cuts_declaration : Cuts stop old true false True declaration declaration cursor := by
  refine cuts_modifiers.beforeMissing (fun _ _ _ => ⟨_, rfl⟩) fun modifiers next _ _ => ?_
  refine cuts_currentKind (halts_of_failure fun _ _ => ⟨_, rfl⟩) ?_
  split
  · next word =>
      refine cuts_withoutTags _ modifiers ?_
      refine cuts_word word (halts_of_failure fun _ _ => ⟨_, rfl⟩) fun _ _ => ?_
      refine cuts_dottedPath.beforeMissing (fun _ _ _ => ⟨_, rfl⟩) fun _ _ _ _ => ?_
      exact (cuts_semicolon _).placed
  · next word =>
      refine cuts_word word ((halts_classWith member modifiers).bind fun _ =>
        halts_of_value fun _ _ => ⟨_, rfl⟩) fun _ _ => ?_
      exact (cuts_classWith ⟨fun _ _ => cuts_member, halts_member⟩ (Nat.le_refl _) modifiers).placed
  · next word =>
      refine cuts_word word (halts_of_failure fun _ _ => ⟨_, rfl⟩) fun _ _ => ?_
      exact (cuts_method modifiers).placed
  · exact cuts_failExpected _

end Members

end DataClass.Grammar.Reader
