import DataClass.Grammar.Declaration
import DataClass.Proofs.Grammar.Laying.Basic
import DataClass.Proofs.Grammar.Soundness.Expr
namespace DataClass

theorem TypeRef.span_extent (type : TypeRef) : type.extent.span = type.span := by cases type <;> rfl

theorem Expr.span_extent (expr : Expr) : expr.extent.span = expr.span := by cases expr <;> rfl

namespace Grammar.Reader

open Extent (Laid LaidAll)
open Token (Begins Ordered Spans)

/-! Where the parts of what is read stand. Each reader of a part gets from where the part begins to where
it ends; one that goes on with a part is told where that part began. -/

variable {tokens : List Token} {position first start : Nat}

/-! Types. -/

section TypeRef

variable {inner : Reader TypeRef}

theorem lays_arrayMarks (ordered : Ordered tokens) (begins : Begins tokens first start) (turns : Nat)
    {type : TypeRef} (before : type.extent.Laid tokens first position) :
    Lays tokens (arrayMarks start turns type) position fun type stop =>
      type.extent.Laid tokens first stop := by
  induction turns generalizing position type with
  | zero => exact lays_pure before
  | succ turns ih =>
      have begun := before.spans.filled
      refine lays_accept_bind (by simp) (lays_expect _ (by simp) ?_) (lays_pure before)
      refine lays_spanFrom ordered begins (by omega) fun span spans => ?_
      exact ih (.node spans (before.one.widen (Nat.le_refl _) (by omega)))

theorem lays_typeArguments (inside : LaysPart tokens TypeRef.extent inner) :
    Lays tokens (typeArguments inner) position fun types stop =>
      LaidAll tokens position stop (types.map TypeRef.extent) := by
  refine lays_accept_bind (by simp) ?_ (lays_pure (.nil (Nat.le_refl _)))
  refine (lays_commaSeparated inside).bind fun types middle _ given => ?_
  exact lays_expect _ (by simp) (lays_pure (given.widen (Nat.le_succ _) (Nat.le_succ _)))

theorem lays_typeRefWith (ordered : Ordered tokens) (inside : LaysPart tokens TypeRef.extent inner) :
    LaysPart tokens TypeRef.extent (typeRefWith inner) := by
  intro position
  refine lays_current fun token found only => ?_
  have begins := Token.begins_of_only only
  split
  · next void =>
      have here := found (by simp [void])
      exact lays_advance here (by simp [void]) (lays_pure (.leaf (Token.spans_token here)))
  · refine lays_dottedPath.bind fun path middle _ begun => ?_
    refine (lays_typeArguments inside).bind fun arguments last onward given => ?_
    refine lays_spanFrom ordered begins (by omega) fun span spans => lays_remaining fun turns => ?_
    refine lays_arrayMarks ordered begins turns (.node spans ?_)
    rw [TypeRef.extentAll_eq_map]
    exact given.widen (Nat.le_of_lt begun) (Nat.le_refl _)

theorem lays_typeRefAt (ordered : Ordered tokens) (depth : Nat) :
    LaysPart tokens TypeRef.extent (typeRefAt depth) := by
  induction depth with
  | zero => exact fun _ => lays_failExpected _
  | succ depth ih => exact lays_typeRefWith ordered ih

theorem lays_typeRef (ordered : Ordered tokens) : LaysPart tokens TypeRef.extent typeRef :=
  fun _ => lays_remaining fun turns => lays_typeRefAt ordered (turns + 1) _

theorem lays_typeAfterColon (ordered : Ordered tokens) :
    Lays tokens typeAfterColon position fun type stop =>
      LaidAll tokens position stop (type.map TypeRef.extent).toList := by
  refine lays_accept_bind (by simp) ?_ (lays_pure (.nil (Nat.le_refl _)))
  exact (lays_typeRef ordered _).map fun type stop _ here => here.one.widen (Nat.le_succ _) (Nat.le_refl _)

end TypeRef

/-! Expressions. -/

section Expr

variable {operand inner : Reader Expr} {arguments : Reader (List Expr)}

theorem laid_join (ordered : Ordered tokens) {left right : Expr} {middle later stop : Nat}
    (op : BinaryOp) (before : left.extent.Laid tokens first middle)
    (behind : right.extent.Laid tokens later stop) (onward : middle ≤ later) :
    (left.join op right).extent.Laid tokens first stop := by
  refine .node ?_ (.cons (Nat.le_refl _) before (behind.one.widen onward (Nat.le_refl _)))
  rw [← left.span_extent, ← right.span_extent]
  exact before.spans.merge behind.spans ordered onward

theorem lays_operator {kind : TokenKind} {level : Nat} {op : BinaryOp} {following : Unit → Reader Expr}
    {wanted : Expr → Nat → Prop} (sign : binaryAt? level kind = some op)
    (found : kind ≠ .endOfFile → ∃ token, tokens[position]? = some token ∧ token.kind = kind)
    (later : Lays tokens (following ()) (position + 1) wanted) :
    Lays tokens (advance >>= following) position wanted := by
  have more : kind ≠ .endOfFile := by
    rintro rfl
    cases sign
  obtain ⟨token, here, known⟩ := found more
  exact lays_advance here (known ▸ more) later

theorem lays_operatorsBehind (ordered : Ordered tokens) (operands : LaysPart tokens Expr.extent operand)
    (level turns : Nat) {left : Expr} (before : left.extent.Laid tokens first position) :
    Lays tokens (operatorsBehind operand level turns left) position fun expr stop =>
      expr.extent.Laid tokens first stop := by
  induction turns generalizing position left with
  | zero => exact lays_pure before
  | succ turns ih =>
      refine lays_currentKind fun kind found => ?_
      cases sign : binaryAt? level kind with
      | none => exact lays_pure before
      | some op =>
          refine lays_operator sign found ((operands _).bind fun right middle _ behind => ?_)
          have joined := laid_join ordered op before behind (Nat.le_succ _)
          split
          · refine lays_currentKind fun next found => ?_
            cases again : binaryAt? level next with
            | none => exact lays_pure joined
            | some other =>
                exact lays_operator again found (lays_previousSpan (Nat.succ_pos _) fun _ _ => lays_fail _)
          · exact ih joined

theorem lays_binaryWith (ordered : Ordered tokens) (operands : LaysPart tokens Expr.extent operand)
    (levels : List Nat) : LaysPart tokens Expr.extent (binaryWith operand levels) := by
  induction levels with
  | nil => exact operands
  | cons level tighter ih =>
      exact fun _ => (ih _).bind fun left _ _ before => lays_remaining fun turns =>
        lays_operatorsBehind ordered ih level turns before

theorem lays_signed (operands : LaysPart tokens Expr.extent operand)
    (turns : Nat) : LaysPart tokens Expr.extent (signed operand turns) := by
  induction turns with
  | zero => exact operands
  | succ turns ih =>
      intro position
      refine lays_current fun token found _ => ?_
      cases sign : unary? token.kind with
      | none => exact operands _
      | some op =>
          have more : token.kind ≠ .endOfFile := by
            intro ends
            rw [ends] at sign
            cases sign
          refine lays_advance (found more) more ((ih _).map fun inner stop _ here => ?_)
          refine .node ?_ (here.one.widen (Nat.le_succ _) (Nat.le_refl _))
          have spans := (Token.spans_token (found more)).reach here.spans (Nat.le_refl _)
          rwa [inner.span_extent] at spans

theorem lays_accesses (ordered : Ordered tokens)
    (given : ∀ position, Lays tokens arguments position fun exprs stop =>
      LaidAll tokens position stop (exprs.map Expr.extent))
    (turns : Nat) {base : Expr} (before : base.extent.Laid tokens first position) :
    Lays tokens (accesses arguments turns base) position fun expr stop =>
      expr.extent.Laid tokens first stop := by
  induction turns generalizing position base with
  | zero => exact lays_pure before
  | succ turns ih =>
      have begun := before.spans.filled
      have begins : Begins tokens first base.span.start := base.span_extent ▸ before.spans.begins
      refine lays_accept_bind (by simp) ?_ ?_
      · refine lays_identifier fun name => lays_isNext fun _ => ?_
        split
        · refine (given _).bind fun exprs last onward inside => ?_
          refine lays_spanFrom ordered begins (by omega) fun span spans => ?_
          refine ih (.node spans (.cons (Nat.le_refl _) before ?_))
          rw [Expr.extentAll_eq_map]
          exact inside.widen (by omega) (Nat.le_refl _)
        · refine lays_spanFrom ordered begins (by omega) fun span spans => ?_
          exact ih (.node spans (before.one.widen (Nat.le_refl _) (by omega)))
      · refine lays_isNext fun _ => ?_
        split
        · refine (given _).bind fun exprs last onward inside => ?_
          refine lays_spanFrom ordered begins (by omega) fun span spans => ?_
          refine ih (.node spans (.cons (Nat.le_refl _) before ?_))
          rw [Expr.extentAll_eq_map]
          exact inside
        · exact lays_pure before

theorem extent_operand? {token : Token} {expr : Expr} (read : operand? token = some expr) :
    expr.extent = .node token.span [] := by
  unfold operand? at read
  split at read <;> cases read <;> rfl

theorem lays_operandWith (ordered : Ordered tokens) (inside : LaysPart tokens Expr.extent inner) :
    LaysPart tokens Expr.extent (operandWith inner) := by
  intro position
  refine lays_current fun token found only => ?_
  have begins := Token.begins_of_only only
  split
  · next opening =>
      refine lays_advance (found (by simp [opening])) (by simp [opening]) ?_
      refine (inside _).bind fun expr middle onward within => lays_expect _ (by simp) ?_
      refine lays_spanFrom ordered begins (by omega) fun span spans => lays_pure (.node spans ?_)
      exact within.one.widen (Nat.le_succ _) (Nat.le_succ _)
  · split
    · next expr read =>
        obtain ⟨_, _, _, _, more⟩ := operand?_some read
        refine lays_advance (found more) more (lays_pure ?_)
        rw [extent_operand? read]
        exact .leaf (Token.spans_token (found more))
    · exact lays_failExpected _

theorem lays_expressionWith (ordered : Ordered tokens) (inside : LaysPart tokens Expr.extent inner) :
    LaysPart tokens Expr.extent (expressionWith inner) := by
  refine lays_binaryWith ordered (fun position => lays_remaining fun turns => ?_) _
  refine lays_signed (fun position => ?_) turns position
  refine (lays_operandWith ordered inside _).bind fun base _ _ before => lays_remaining fun turns => ?_
  refine lays_accesses ordered (fun position => ?_) turns before
  exact (lays_parenthesized _ _ inside).weaken fun _ _ _ given =>
    given.2.widen (Nat.le_refl _) (Nat.sub_le ..)

theorem lays_expressionAt (ordered : Ordered tokens) (depth : Nat) :
    LaysPart tokens Expr.extent (expressionAt depth) := by
  induction depth with
  | zero => exact fun _ => lays_failExpected _
  | succ depth ih => exact lays_expressionWith ordered ih

theorem lays_expression (ordered : Ordered tokens) : LaysPart tokens Expr.extent expression :=
  fun _ => lays_remaining fun turns => lays_expressionAt ordered (turns + 1) _

theorem lays_expressionAfterEquals (ordered : Ordered tokens) :
    Lays tokens expressionAfterEquals position fun value stop =>
      LaidAll tokens position stop (value.map Expr.extent).toList := by
  refine lays_accept_bind (by simp) ?_ (lays_pure (.nil (Nat.le_refl _)))
  exact (lays_expression ordered _).map fun expr stop _ here => here.one.widen (Nat.le_succ _) (Nat.le_refl _)

end Expr

/-! Statements. -/

section Stmt

variable {inner : Reader Stmt}

theorem lays_blockWith (inside : LaysPart tokens Stmt.extent inner) :
    Lays tokens (blockWith inner) position fun body stop =>
      position < stop ∧ LaidAll tokens position stop (body.map Stmt.extent) := lays_braced _ _ _ inside

theorem lays_declareFrom (ordered : Ordered tokens) (begins : Begins tokens first start)
    (begun : first < position) :
    Lays tokens (declareFrom start) position fun stmt stop => stmt.extent.Laid tokens first stop := by
  refine lays_identifier fun name => (lays_typeAfterColon ordered).bind fun type _ _ typed => ?_
  refine (lays_expressionAfterEquals ordered).bind fun value _ _ valued => lays_expect _ (by simp) ?_
  refine lays_spanFrom ordered begins (by omega) fun span spans => lays_pure (.node spans ?_)
  exact (typed.append valued).widen (by omega) (Nat.le_succ _)

theorem lays_giveBackFrom (ordered : Ordered tokens) (begins : Begins tokens first start)
    (begun : first < position) :
    Lays tokens (giveBackFrom start) position fun stmt stop => stmt.extent.Laid tokens first stop := by
  refine lays_accept_bind (by simp) ?_ ?_
  · exact lays_spanFrom ordered begins (by omega) fun span spans => lays_pure (.leaf spans)
  · refine (lays_expression ordered _).bind fun value _ _ here => lays_expect _ (by simp) ?_
    refine lays_spanFrom ordered begins (by omega) fun span spans => lays_pure (.node spans ?_)
    exact here.one.widen (Nat.le_of_lt begun) (Nat.le_succ _)

theorem lays_elseWith (inside : LaysPart tokens Stmt.extent inner) :
    Lays tokens (elseWith inner) position fun body stop =>
      LaidAll tokens position stop ((body.getD []).map Stmt.extent) := by
  refine lays_accept_bind (by simp) (lays_isNext fun _ => ?_) (lays_pure (.nil (Nat.le_refl _)))
  split
  · exact (inside _).map fun stmt stop _ here => here.one.widen (Nat.le_succ _) (Nat.le_refl _)
  · exact (lays_blockWith inside).map fun body stop _ here => here.2.widen (Nat.le_succ _) (Nat.le_refl _)

theorem lays_chooseFrom (ordered : Ordered tokens) (begins : Begins tokens first start)
    (begun : first < position) (inside : LaysPart tokens Stmt.extent inner) :
    Lays tokens (chooseFrom inner start) position fun stmt stop => stmt.extent.Laid tokens first stop := by
  refine (lays_expression ordered _).bind fun condition _ onward tested => ?_
  refine (lays_blockWith inside).bind fun thenBody _ further chosen => ?_
  refine (lays_elseWith inside).bind fun elseBody _ last otherwise => ?_
  refine lays_spanFrom ordered begins (by omega) fun span spans => lays_pure ?_
  cases elseBody with
  | none =>
      rw [Stmt.extent, Stmt.extentAll_eq_map]
      exact .node spans (.cons (Nat.le_of_lt begun) tested (chosen.2.widen (Nat.le_refl _) last))
  | some elseBody =>
      rw [Stmt.extent, Stmt.extentAll_eq_map, Stmt.extentAll_eq_map]
      exact .node spans (.cons (Nat.le_of_lt begun) tested (chosen.2.append otherwise))

theorem lays_repeatFrom (ordered : Ordered tokens) (begins : Begins tokens first start)
    (begun : first < position) (inside : LaysPart tokens Stmt.extent inner) :
    Lays tokens (repeatFrom inner start) position fun stmt stop => stmt.extent.Laid tokens first stop := by
  refine (lays_expression ordered _).bind fun condition _ onward tested => ?_
  refine (lays_blockWith inside).bind fun body _ further repeated => ?_
  refine lays_spanFrom ordered begins (by omega) fun span spans => lays_pure ?_
  rw [Stmt.extent, Stmt.extentAll_eq_map]
  exact .node spans (.cons (Nat.le_of_lt begun) tested repeated.2)

theorem lays_evaluateFrom (ordered : Ordered tokens) (begins : Begins tokens position start) :
    Lays tokens (evaluateFrom start) position fun stmt stop => stmt.extent.Laid tokens position stop := by
  refine (lays_expression ordered _).bind fun expr middle _ here => ?_
  have begun := here.spans.filled
  refine lays_accept_bind (by simp) ?_ ?_
  · split
    · refine (lays_expression ordered _).bind fun value _ _ assigned => lays_expect _ (by simp) ?_
      refine lays_spanFrom ordered begins (by omega) fun span spans => lays_pure (.node spans ?_)
      exact .cons (Nat.le_refl _) here (assigned.one.widen (Nat.le_succ _) (Nat.le_succ _))
    · exact lays_fail _
  · refine lays_expect _ (by simp) (lays_spanFrom ordered begins (by omega) fun span spans => ?_)
    exact lays_pure (.node spans (here.one.widen (Nat.le_refl _) (Nat.le_succ _)))

theorem lays_statementWith (ordered : Ordered tokens) (inside : LaysPart tokens Stmt.extent inner) :
    LaysPart tokens Stmt.extent (statementWith inner) := by
  intro position
  refine lays_current fun token found only => ?_
  have begins := Token.begins_of_only only
  have begun := Nat.lt_succ_self position
  have taken : ∀ {word : Keyword} {reader : Reader Stmt}, token.kind = .keyword word →
      Lays tokens reader (position + 1) (fun stmt stop => stmt.extent.Laid tokens position stop) →
      Lays tokens (advance >>= fun _ => reader) position
        fun stmt stop => stmt.extent.Laid tokens position stop :=
    fun keyword later => lays_advance (found (by simp [keyword])) (by simp [keyword]) later
  dsimp only
  split
  · next keyword => exact taken keyword (lays_declareFrom ordered begins begun)
  · next keyword => exact taken keyword (lays_giveBackFrom ordered begins begun)
  · next keyword => exact taken keyword (lays_chooseFrom ordered begins begun inside)
  · next keyword => exact taken keyword (lays_repeatFrom ordered begins begun inside)
  · exact lays_evaluateFrom ordered begins

theorem lays_statementAt (ordered : Ordered tokens) (depth : Nat) :
    LaysPart tokens Stmt.extent (statementAt depth) := by
  induction depth with
  | zero => exact fun _ => lays_failExpected _
  | succ depth ih => exact lays_statementWith ordered ih

theorem lays_block (ordered : Ordered tokens) :
    Lays tokens block position fun body stop =>
      position < stop ∧ LaidAll tokens position stop (body.map Stmt.extent) := by
  exact lays_blockWith fun _ => lays_remaining fun turns => lays_statementAt ordered (turns + 1) _

end Stmt

/-! Members and declarations. -/

section Declaration

variable {inner : Reader Member}

theorem lays_withoutTags {α : Type} {following : Unit → Reader α} {wanted : α → Nat → Prop}
    (place : String) (modifiers : Modifiers) (later : Lays tokens (following ()) position wanted) :
    Lays tokens (withoutTags place modifiers >>= following) position wanted := by
  unfold withoutTags
  split
  · exact later
  · next tag _ _ => exact lays_fail (tagNotAllowed place tag.span)

theorem lays_tags (ordered : Ordered tokens) (turns : Nat) :
    Lays tokens (tags turns) position fun tags stop =>
      LaidAll tokens position stop (tags.map Tag.extent) := by
  induction turns generalizing position with
  | zero => exact lays_pure (.nil (Nat.le_refl _))
  | succ turns ih =>
      refine lays_current fun token found only => ?_
      have begins := Token.begins_of_only only
      split
      · next sign =>
          refine lays_advance (found (by simp [sign])) (by simp [sign]) ?_
          refine lays_dottedPath.bind fun path middle onward begun => ?_
          refine lays_spanFrom ordered begins (by omega) fun span spans => ?_
          exact ih.map fun tags stop _ later => .cons (Nat.le_refl _) (.leaf spans) later
      · exact lays_pure (.nil (Nat.le_refl _))

theorem lays_modifiers (ordered : Ordered tokens) :
    Lays tokens modifiers position fun modifiers stop =>
      LaidAll tokens position stop (modifiers.tags.map Tag.extent) ∧
        Begins tokens position modifiers.start := by
  refine lays_current fun token _ only => lays_remaining fun turns => ?_
  have begins := Token.begins_of_only only
  refine (lays_tags ordered turns).bind fun tags middle _ tagged => ?_
  refine lays_accept_bind (by simp) (lays_pure ⟨tagged.widen (Nat.le_refl _) (Nat.le_succ _), begins⟩) ?_
  exact (lays_accept (by simp)).map fun _ stop onward _ => ⟨tagged.widen (Nat.le_refl _) onward, begins⟩

theorem lays_param (ordered : Ordered tokens) : LaysPart tokens Param.extent param := by
  intro position
  refine lays_current fun token _ only => lays_identifier fun name => lays_expect _ (by simp) ?_
  refine (lays_typeRef ordered _).map fun type stop onward typed => ?_
  have within := typed.spans.within
  have begun := typed.spans.filled
  have here := List.getElem?_eq_getElem (show position < tokens.length by omega)
  rw [only _ here] at here
  refine .node ?_ (typed.one.widen (by omega) (Nat.le_refl _))
  have spans := (Token.spans_token here).merge typed.spans ordered (by omega)
  rwa [type.span_extent] at spans

theorem lays_params (ordered : Ordered tokens) :
    Lays tokens params position fun params stop =>
      0 < stop ∧ LaidAll tokens position (stop - 1) (params.map Param.extent) :=
  lays_parenthesized _ _ (lays_param ordered)

/-- The parts of a declaration behind its tags, which began with the first of these. -/
theorem lays_method (ordered : Ordered tokens) {modifiers : Modifiers}
    (tagged : LaidAll tokens first position (modifiers.tags.map Tag.extent)) :
    Lays tokens (method modifiers) position fun decl stop =>
      position < stop ∧ LaidAll tokens first stop decl.extents := by
  refine lays_identifier fun name => (lays_params ordered).bind fun params middle further given => ?_
  refine (lays_typeAfterColon ordered).bind fun written last onward typed => ?_
  refine lays_previousSpan (by omega) fun span spans => ?_
  refine (lays_block ordered).map fun body stop _ inside => ⟨by omega, ?_⟩
  refine (tagged.widen (Nat.le_refl _) (Nat.le_succ _)).append (given.2.append ?_)
  cases written with
  | some type => exact (typed.append inside.2).widen (Nat.sub_le ..) (Nat.le_refl _)
  | none =>
      -- the type that is not written stands on the parenthesis behind the parameters
      have void : (TypeRef.void span).extent.Laid tokens (last - 1) last := .leaf spans
      exact .cons (Nat.sub_le_sub_right onward 1) void inside.2

theorem lays_constructor (ordered : Ordered tokens) {modifiers : Modifiers}
    (tagged : LaidAll tokens first position (modifiers.tags.map Tag.extent)) :
    Lays tokens (constructor modifiers) position fun decl stop =>
      position < stop ∧ LaidAll tokens first stop decl.extents := by
  refine (lays_params ordered).bind fun params middle onward given => ?_
  refine (lays_block ordered).map fun body stop _ inside => ⟨by omega, ?_⟩
  exact tagged.append ((given.2.widen (Nat.le_refl _) (Nat.sub_le ..)).append inside.2)

theorem lays_field (ordered : Ordered tokens) {modifiers : Modifiers}
    (tagged : LaidAll tokens first position (modifiers.tags.map Tag.extent)) :
    Lays tokens (field modifiers) position fun decl stop =>
      position < stop ∧ LaidAll tokens first stop decl.extents := by
  refine lays_identifier fun name => (lays_typeAfterColon ordered).bind fun type _ _ typed => ?_
  refine (lays_expressionAfterEquals ordered).bind fun value _ _ valued => ?_
  refine lays_expect _ (by simp) (lays_pure ⟨by omega, ?_⟩)
  exact tagged.append ((typed.append valued).widen (Nat.le_succ _) (Nat.le_succ _))

theorem lays_classWith (inside : LaysPart tokens Member.extent inner)
    {modifiers : Modifiers} (tagged : LaidAll tokens first position (modifiers.tags.map Tag.extent)) :
    Lays tokens (classWith inner modifiers) position fun decl stop =>
      position < stop ∧ LaidAll tokens first stop decl.extents := by
  refine lays_identifier fun name => ?_
  refine (lays_braced _ _ _ inside).map fun members stop _ body => ⟨by omega, ?_⟩
  rw [Class.extents, Member.extentAll_eq_map]
  exact tagged.append (body.2.widen (Nat.le_succ _) (Nat.le_refl _))

/-- What is read behind a word, with the range that began in front of it. -/
theorem lays_behindWord {α β : Type} (ordered : Ordered tokens) {word : Keyword}
    (begins : Begins tokens first start) (begun : first ≤ position) {read : Reader α}
    {build : Span → α → β} {extents : α → List Extent} {extent : β → Extent}
    (same : ∀ span value, extent (build span value) = .node span (extents value))
    (found : ∃ token, tokens[position]? = some token ∧ token.kind = .keyword word)
    (inside : Lays tokens read (position + 1) fun value stop => LaidAll tokens first stop (extents value)) :
    Lays tokens (advance >>= fun _ => read >>= fun value => spanFrom start >>= fun span =>
      pure (build span value)) position fun result stop => (extent result).Laid tokens first stop := by
  obtain ⟨token, here, known⟩ := found
  refine lays_advance here (by simp [known]) (inside.bind fun value middle onward parts => ?_)
  refine lays_spanFrom ordered begins (by omega) fun span spans => lays_pure ?_
  rw [same]
  exact .node spans parts

theorem lays_memberWith (ordered : Ordered tokens) (inside : LaysPart tokens Member.extent inner) :
    LaysPart tokens Member.extent (memberWith inner) := by
  intro position
  refine (lays_modifiers ordered).bind fun modifiers middle onward ⟨tagged, begins⟩ => ?_
  have later := tagged.widen (Nat.le_refl _) (Nat.le_succ middle)
  refine lays_currentKind fun kind found => ?_
  split
  · exact lays_behindWord ordered begins onward (fun _ _ => rfl) (found (by simp))
      ((lays_method ordered later).weaken fun _ _ _ => And.right)
  · exact lays_behindWord ordered begins onward (fun _ _ => rfl) (found (by simp))
      ((lays_constructor ordered later).weaken fun _ _ _ => And.right)
  · refine lays_withoutTags _ modifiers ?_
    exact lays_behindWord ordered begins onward (fun _ _ => rfl) (found (by simp))
      ((lays_block ordered).weaken fun _ _ _ body => body.2.widen (by omega) (Nat.le_refl _))
  · exact lays_behindWord ordered begins onward (fun _ _ => rfl) (found (by simp))
      ((lays_classWith inside later).weaken fun _ _ _ => And.right)
  · refine (lays_field ordered tagged).bind fun decl stop further parts => ?_
    exact lays_spanFrom ordered begins (by omega) fun span spans => lays_pure (.node spans parts.2)
  · exact lays_failExpected _

theorem lays_memberAt (ordered : Ordered tokens) (depth : Nat) :
    LaysPart tokens Member.extent (memberAt depth) := by
  induction depth with
  | zero => exact fun _ => lays_failExpected _
  | succ depth ih => exact lays_memberWith ordered ih

theorem lays_member (ordered : Ordered tokens) : LaysPart tokens Member.extent member :=
  fun _ => lays_remaining fun turns => lays_memberAt ordered (turns + 1) _

theorem lays_declaration (ordered : Ordered tokens) :
    LaysPart tokens Declaration.extent declaration := by
  intro position
  refine (lays_modifiers ordered).bind fun modifiers middle onward ⟨tagged, begins⟩ => ?_
  have later := tagged.widen (Nat.le_refl _) (Nat.le_succ middle)
  refine lays_currentKind fun kind found => ?_
  split
  · refine lays_withoutTags _ modifiers ?_
    obtain ⟨token, here, known⟩ := found (by simp)
    refine lays_advance here (by simp [known]) (lays_dottedPath.bind fun path stop further _ => ?_)
    refine lays_expect _ (by simp) (lays_spanFrom ordered begins (by omega) fun span spans => ?_)
    exact lays_pure (.leaf spans)
  · exact lays_behindWord ordered begins onward (fun _ _ => rfl) (found (by simp))
      ((lays_classWith (lays_member ordered) later).weaken fun _ _ _ => And.right)
  · exact lays_behindWord ordered begins onward (fun _ _ => rfl) (found (by simp))
      ((lays_method ordered later).weaken fun _ _ _ => And.right)
  · exact lays_failExpected _

end Declaration

end Grammar.Reader

end DataClass
