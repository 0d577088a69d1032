import DataClass.Grammar.Declaration
import DataClass.Proofs.Grammar.Soundness.Expr
namespace DataClass.Grammar

namespace Cursor

/-- The same tokens ahead, behind another token. -/
def behind (cursor : Cursor) (place : Option Span) : Cursor := { cursor with previous := place }

theorem step_behind {cursor : Cursor} (more : cursor.current.kind ≠ .endOfFile)
    (place : Option Span) : (cursor.behind place).step = cursor.step := by
  obtain ⟨previous, tokens, reported⟩ := cursor
  cases tokens with
  | nil => exact absurd rfl more
  | cons token rest =>
      have known : token.kind ≠ .endOfFile := more
      simp [behind, step, known]

end Cursor

namespace Reader

/-! What a reader does does not depend on the place of the token in front of those it reads. The place
is only looked at for ranges, and these end behind a token that has been taken. -/

variable {α β : Type}

/-- Behind another token the reader does the same. Only where it has taken no token it has stayed
there, with a fault or, unless it `takes` a token for a value, with a value. -/
def Unplaced (takes : Prop) (reader : Reader α) (cursor : Cursor) (place : Option Span) : Prop :=
  reader (cursor.behind place) = reader cursor ∨
    (∃ fault, reader cursor = .failure fault cursor ∧
      reader (cursor.behind place) = .failure fault (cursor.behind place)) ∨
    ¬takes ∧ ∃ result, reader cursor = .value result cursor ∧
      reader (cursor.behind place) = .value result (cursor.behind place)

variable {takes takes' : Prop} {cursor : Cursor} {place : Option Span}

theorem unplaced_pure (result : α) : Unplaced False (pure result) cursor place :=
  .inr (.inr ⟨id, result, rfl, rfl⟩)

theorem unplaced_fail (fault : Diagnostic) : Unplaced takes (fail fault : Reader α) cursor place :=
  .inr (.inl ⟨fault, rfl, rfl⟩)

theorem unplaced_failExpected (expected : String) :
    Unplaced takes (failExpected expected : Reader α) cursor place :=
  .inr (.inl ⟨_, rfl, rfl⟩)

theorem Unplaced.bind {reader : Reader β} {following : β → Reader α}
    (start : Unplaced takes' reader cursor place)
    (later : ¬takes' → ∀ result, Unplaced takes (following result) cursor place) :
    Unplaced takes (reader >>= following) cursor place := by
  rcases start with same | ⟨fault, here, there⟩ | ⟨stays, result, here, there⟩
  · left
    cases here : reader cursor with
    | value result next => rw [bind_value here, bind_value (same.trans here)]
    | failure fault next => rw [bind_failure here, bind_failure (same.trans here)]
  · exact .inr (.inl ⟨fault, bind_failure here, bind_failure there⟩)
  · have later := later stays result
    rw [Unplaced, bind_value here, bind_value there]
    exact later

/-- Nothing behind a reader that takes a token sees the place in front of it. -/
theorem Unplaced.first {reader : Reader β} {following : β → Reader α}
    (start : Unplaced True reader cursor place) :
    Unplaced takes (reader >>= following) cursor place :=
  start.bind fun stays => absurd trivial stays

theorem unplaced_current {following : Token → Reader α}
    (later : Unplaced takes (following cursor.current) cursor place) :
    Unplaced takes (current >>= following) cursor place := later

theorem unplaced_currentKind {following : TokenKind → Reader α}
    (later : Unplaced takes (following cursor.current.kind) cursor place) :
    Unplaced takes (currentKind >>= following) cursor place := later

theorem unplaced_remaining {following : Nat → Reader α}
    (later : Unplaced takes (following cursor.rest.length) cursor place) :
    Unplaced takes (remaining >>= following) cursor place := later

theorem unplaced_advance {kind : TokenKind} (here : cursor.current.kind = kind)
    (more : kind ≠ .endOfFile) : Unplaced True advance cursor place := by
  subst here
  exact .inl (by rw [advance, advance, Cursor.step_behind more])

theorem unplaced_accepted {kind : TokenKind} (here : cursor.current.kind = kind)
    (more : kind ≠ .endOfFile) : Unplaced takes (accept kind) cursor place := by
  have there : (cursor.behind place).current.kind = kind := here
  subst here
  left
  rw [accept, accept, if_pos BEq.rfl, if_pos (by rw [there]; exact BEq.rfl), Cursor.step_behind more]

theorem unplaced_accept {kind : TokenKind} (more : kind ≠ .endOfFile) :
    Unplaced False (accept kind) cursor place := by
  by_cases here : cursor.current.kind = kind
  · exact unplaced_accepted here more
  · have there : (cursor.behind place).current.kind ≠ kind := here
    exact .inr (.inr ⟨id, false, by simp [accept, here], by simp [accept, there]⟩)

theorem unplaced_accept_bind {kind : TokenKind} {found other : Reader α} (more : kind ≠ .endOfFile)
    (no : Unplaced takes other cursor place) :
    Unplaced takes (accept kind >>= fun here => if here = true then found else other) cursor place := by
  by_cases here : cursor.current.kind = kind
  · exact (unplaced_accepted here more).first
  · have there : (cursor.behind place).current.kind ≠ kind := here
    have declines : accept kind cursor = .value false cursor := by simp [accept, here]
    have declines' : accept kind (cursor.behind place) = .value false (cursor.behind place) := by
      simp [accept, there]
    rw [Unplaced, bind_value declines, bind_value declines']
    exact no

theorem unplaced_expect {kind : TokenKind} (expected : String) (more : kind ≠ .endOfFile) :
    Unplaced True (expect kind expected) cursor place :=
  unplaced_accept_bind more (unplaced_failExpected expected)

theorem unplaced_identifier : Unplaced True identifier cursor place := by
  refine unplaced_currentKind ?_
  cases here : cursor.current.kind with
  | identifier name => exact (unplaced_advance here (by simp)).first
  | _ => exact unplaced_failExpected _

theorem unplaced_operandWith (inner : Reader Expr) : Unplaced True (operandWith inner) cursor place := by
  refine unplaced_current ?_
  split
  · next opening => exact (unplaced_advance opening (by simp)).first
  · split
    · next expr found =>
        obtain ⟨_, _, _, _, more⟩ := operand?_some found
        exact (unplaced_advance rfl more).first
    · exact unplaced_failExpected _

theorem unplaced_signed {operand : Reader Expr} (operands : Unplaced True operand cursor place) :
    ∀ turns, Unplaced True (signed operand turns) cursor place := by
  intro turns
  cases turns with
  | zero => exact operands
  | succ turns =>
      refine unplaced_current ?_
      cases found : unary? cursor.current.kind with
      | none => exact operands
      | some op => exact (unplaced_advance (unary?_some found) (by simp)).first

theorem unplaced_binaryWith {operand : Reader Expr} (operands : Unplaced True operand cursor place)
    (levels : List Nat) : Unplaced True (binaryWith operand levels) cursor place := by
  induction levels with
  | nil => exact operands
  | cons level tighter ih => exact ih.first

theorem unplaced_expression : Unplaced True expression cursor place :=
  unplaced_remaining (unplaced_binaryWith
    (unplaced_remaining (unplaced_signed (unplaced_operandWith _).first _)) precedences)

theorem unplaced_statementWith (inner : Reader Stmt) :
    Unplaced True (statementWith inner) cursor place := by
  refine unplaced_current ?_
  split
  · next word => exact (unplaced_advance word (by simp)).first
  · next word => exact (unplaced_advance word (by simp)).first
  · next word => exact (unplaced_advance word (by simp)).first
  · next word => exact (unplaced_advance word (by simp)).first
  · exact unplaced_expression.first

theorem unplaced_typeAfterColon : Unplaced False typeAfterColon cursor place :=
  unplaced_accept_bind (by simp) (unplaced_pure none)

theorem unplaced_params : Unplaced True params cursor place :=
  (unplaced_expect _ (by simp)).first

theorem unplaced_tags : ∀ turns, Unplaced False (tags turns) cursor place := by
  intro turns
  cases turns with
  | zero => exact unplaced_pure []
  | succ turns =>
      refine unplaced_current ?_
      split
      · next sign => exact (unplaced_advance sign (by simp)).first
      · exact unplaced_pure []

theorem unplaced_modifiers : Unplaced False modifiers cursor place := by
  refine unplaced_current (unplaced_remaining ?_)
  refine (unplaced_tags _).bind fun _ _ => ?_
  refine unplaced_accept_bind (by simp) ?_
  exact (unplaced_accept (by simp)).bind fun _ _ => unplaced_pure _

theorem unplaced_withoutTags {following : Unit → Reader α} (forbidden : String) (modifiers : Modifiers)
    (later : Unplaced takes (following ()) cursor place) :
    Unplaced takes (withoutTags forbidden modifiers >>= following) cursor place := by
  unfold withoutTags
  split
  · exact later
  · next tag _ _ => exact unplaced_fail (tagNotAllowed forbidden tag.span)

theorem unplaced_memberWith (inner : Reader Member) :
    Unplaced True (memberWith inner) cursor place := by
  refine unplaced_modifiers.bind fun _ modifiers => unplaced_currentKind ?_
  split
  · next word => exact (unplaced_advance word (by simp)).first
  · next word => exact (unplaced_advance word (by simp)).first
  · next word => exact unplaced_withoutTags _ modifiers (unplaced_advance word (by simp)).first
  · next word => exact (unplaced_advance word (by simp)).first
  · exact unplaced_identifier.first.first
  · exact unplaced_failExpected _

theorem unplaced_declaration : Unplaced True declaration cursor place := by
  refine unplaced_modifiers.bind fun _ modifiers => unplaced_currentKind ?_
  split
  · next word => exact unplaced_withoutTags _ modifiers (unplaced_advance word (by simp)).first
  · next word => exact (unplaced_advance word (by simp)).first
  · next word => exact (unplaced_advance word (by simp)).first
  · exact unplaced_failExpected _

end Reader

end DataClass.Grammar
