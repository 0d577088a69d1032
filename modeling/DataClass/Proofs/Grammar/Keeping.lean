import DataClass.Grammar.Recovery
import DataClass.Proofs.Grammar.Consuming
import DataClass.Proofs.Grammar.Shape
namespace DataClass

namespace TokenKind

/-- What becomes of the tokens of a program when it is read and written again: only what has a default
or means nothing is left out. -/
inductive Keeps : List TokenKind → List TokenKind → Prop where
  | same (kinds : List TokenKind) : Keeps kinds kinds
  | append {before after before' after' : List TokenKind} (first : Keeps before after)
      (second : Keeps before' after') : Keeps (before ++ before') (after ++ after')
  | hidden : Keeps [.keyword .privWord] []
  | shownImport : Keeps [.keyword .pubWord, .keyword .importWord] [.keyword .importWord]
  | shownInitializer : Keeps [.keyword .pubWord, .keyword .initWord] [.keyword .initWord]
  | returnsNothing :
      Keeps [.punctuation .rightParen, .punctuation .colon, .keyword .voidWord,
          .punctuation .leftBrace]
        [.punctuation .rightParen, .punctuation .leftBrace]
  | otherwise {body : List TokenKind} {only : Stmt} (shaped : only.Shaped)
      (choice : Layout.isChoice only = true) (inside : Keeps body only.kinds) :
      Keeps (.keyword .elseWord :: braced body) (.keyword .elseWord :: only.kinds)

namespace Keeps

variable {before after : List TokenKind}

theorem cons (kind : TokenKind) (kept : Keeps before after) :
    Keeps (kind :: before) (kind :: after) :=
  (same [kind]).append kept

theorem braced (kept : Keeps before after) :
    Keeps (TokenKind.braced before) (TokenKind.braced after) :=
  (kept.append (same _)).cons _

/-- Nothing is written that was not read, nor in another order. -/
theorem sublist (kept : Keeps before after) : after.Sublist before := by
  induction kept with
  | same kinds => exact .refl kinds
  | append _ _ first second => exact first.append second
  | otherwise shaped choice inside ih =>
      exact ((ih.trans (List.sublist_append_left ..)).cons _).cons_cons _
  | _ => simp

end Keeps

end TokenKind

namespace Grammar.Reader

open TokenKind (Keeps)

/-! Readers of bodies report faults and go on. Only where nothing has been reported is the value all
that was read. -/

variable {α β : Type}

/-- Where the reader succeeds and nothing has been reported by then, the value it read and the kinds of
the tokens it took are as wanted. -/
def Gathers (reader : Reader α) (cursor : Cursor) (wanted : α → List TokenKind → Prop) : Prop :=
  ∀ result next, reader cursor = .value result next → next.reported = [] →
    cursor.reported = [] ∧ ∃ taken, cursor.kinds = taken ++ next.kinds ∧ wanted result taken

variable {cursor : Cursor} {wanted : α → List TokenKind → Prop}
  {got : β → List TokenKind → Prop}

theorem Consumes.gathers {reader : Reader α} (consumed : Consumes reader cursor wanted) :
    Gathers reader cursor wanted := by
  intro result next read quiet
  obtain ⟨same, taken, front, good⟩ := consumed result next read
  exact ⟨same ▸ quiet, taken, front, good⟩

theorem gathers_pure {result : α} (good : wanted result []) :
    Gathers (pure result) cursor wanted := (consumes_pure good).gathers

theorem Consumes.bind_gathers {reader : Reader β} {following : β → Reader α}
    (first : Consumes reader cursor got)
    (later : ∀ result next taken, got result taken →
      Gathers (following result) next fun final more => wanted final (taken ++ more)) :
    Gathers (reader >>= following) cursor wanted := by
  intro result next read quiet
  obtain ⟨value, middle, readFirst, readLater⟩ := exists_first read
  obtain ⟨same, taken, front, good⟩ := first value middle readFirst
  obtain ⟨silent, more, behind, goodLater⟩ :=
    later value middle taken good result next readLater quiet
  exact ⟨same ▸ silent, taken ++ more, by rw [front, behind, List.append_assoc], goodLater⟩

/-- Going on behind a reader that may have reported something. What is known of its value counts only
where it has not. -/
theorem Gathers.bind {reader : Reader β} {following : β → Reader α}
    (first : Gathers reader cursor got)
    (later : ∀ result next taken, Gathers (following result) next fun final more =>
      got result taken → wanted final (taken ++ more)) :
    Gathers (reader >>= following) cursor wanted := by
  intro result next read quiet
  obtain ⟨value, middle, readFirst, readLater⟩ := exists_first read
  obtain ⟨silent, _⟩ := later value middle [] result next readLater quiet
  obtain ⟨quietFirst, taken, front, good⟩ := first value middle readFirst silent
  obtain ⟨_, more, behind, goodLater⟩ := later value middle taken result next readLater quiet
  exact ⟨quietFirst, taken ++ more, by rw [front, behind, List.append_assoc], goodLater good⟩

theorem Gathers.weaken {reader : Reader α} {weaker : α → List TokenKind → Prop}
    (gathered : Gathers reader cursor wanted)
    (weaken : ∀ result taken, wanted result taken → weaker result taken) :
    Gathers reader cursor weaker := by
  intro result next read quiet
  obtain ⟨silent, taken, front, good⟩ := gathered result next read quiet
  exact ⟨silent, taken, front, weaken result taken good⟩

theorem gathers_current {following : Token → Reader α}
    (later : Gathers (following cursor.current) cursor wanted) :
    Gathers (current >>= following) cursor wanted := later

theorem gathers_currentKind {following : TokenKind → Reader α}
    (later : Gathers (following cursor.current.kind) cursor wanted) :
    Gathers (currentKind >>= following) cursor wanted := later

theorem gathers_remaining {following : Nat → Reader α}
    (later : Gathers (following cursor.rest.length) cursor wanted) :
    Gathers (remaining >>= following) cursor wanted := later

theorem gathers_previousSpan {following : Span → Reader α}
    (later : ∀ span, Gathers (following span) cursor wanted) :
    Gathers (previousSpan >>= following) cursor wanted := later _

theorem gathers_spanFrom {following : Span → Reader α} (start : Nat)
    (later : ∀ span, Gathers (following span) cursor wanted) :
    Gathers (spanFrom start >>= following) cursor wanted := later _

theorem gathers_isNext {following : Bool → Reader α} {kind : TokenKind}
    (later : Gathers (following (cursor.current.kind == kind)) cursor wanted) :
    Gathers (isNext kind >>= following) cursor wanted := later

theorem gathers_accept_bind {kind : TokenKind} {found other : Reader α} (more : kind ≠ .endOfFile)
    (yes : ∀ next, Gathers found next fun final taken => wanted final (kind :: taken))
    (no : ∀ next, Gathers other next wanted) :
    Gathers (accept kind >>= fun here => if here = true then found else other) cursor wanted :=
  (consumes_accept more).bind_gathers fun here next taken same => by
    subst same
    cases here with
    | true => exact yes next
    | false => exact no next

/-- A part that was read is good, and the tokens taken are those it is written with, but for what is
left out. -/
def Nearly (good : α → Prop) (kinds : α → List TokenKind) (value : α) (taken : List TokenKind) :
    Prop := good value ∧ Keeps taken (kinds value)

theorem gathers_parts {part : Reader α} {good : α → Prop} {kinds : α → List TokenKind}
    (recovery : Recovery) (sound : ∀ cursor, Gathers part cursor (Nearly good kinds)) (fuel : Nat) :
    Gathers (parts recovery part fuel) cursor
      (Nearly (fun values => ∀ value ∈ values, good value) fun values => values.flatMap kinds) := by
  induction fuel generalizing cursor with
  | zero => exact gathers_pure ⟨by simp, .same []⟩
  | succ fuel ih =>
      refine gathers_currentKind ?_
      split
      · exact gathers_pure ⟨by simp, .same []⟩
      · intro result next read quiet
        obtain ⟨tried, middle, readFirst, readLater⟩ := exists_first read
        unfold attempt at readFirst
        split at readFirst
        · next first middle' here =>
            cases readFirst
            have later : Gathers (parts recovery part fuel >>= fun later => pure (first :: later))
                middle fun values taken => Nearly (fun values => ∀ value ∈ values, good value)
                  (fun values => values.flatMap kinds) values.tail taken ∧
                    values = first :: values.tail :=
              ih.bind fun values _ taken => gathers_pure fun read => by simpa using read
            obtain ⟨silent, more, behind, goodLater, shape⟩ := later result next readLater quiet
            obtain ⟨quietFirst, taken, front, goodFirst⟩ := sound cursor first middle here silent
            refine ⟨quietFirst, taken ++ more, by rw [front, behind, List.append_assoc], ?_, ?_⟩
            · rw [shape]
              exact List.forall_mem_cons.mpr ⟨goodFirst.1, goodLater.1⟩
            · dsimp only
              rw [shape, List.flatMap_cons]
              exact goodFirst.2.append goodLater.2
        · next fault middle' here =>
            cases readFirst
            obtain ⟨_, skipped, reported, further⟩ := exists_first readLater
            cases reported
            obtain ⟨_, resumed, recovered, last⟩ := exists_first further
            cases recovered
            obtain ⟨silent, _⟩ := ih result next last quiet
            cases silent

/-- A body that was read is good, and the tokens taken are braces around those it is written with, but
for what is left out. -/
def Enclosed (good : α → Prop) (kinds : α → List TokenKind) (body : α) (taken : List TokenKind) :
    Prop := ∃ inside, taken = TokenKind.braced inside ∧ Nearly good kinds body inside

theorem gathers_braced {part : Reader α} {good : α → Prop} {kinds : α → List TokenKind}
    (recovery : Recovery) (opening closing : String)
    (sound : ∀ cursor, Gathers part cursor (Nearly good kinds)) :
    Gathers (braced recovery opening closing part) cursor
      (Enclosed (fun values => ∀ value ∈ values, good value) fun values => values.flatMap kinds) := by
  refine (consumes_expect opening (by simp)).bind_gathers fun _ _ _ first => gathers_remaining ?_
  refine (gathers_parts recovery sound _).bind fun values _ taken => ?_
  refine (consumes_expect closing (by simp)).bind_gathers fun _ _ _ last => gathers_pure fun read => ?_
  subst first last
  exact ⟨taken, rfl, read⟩

end Grammar.Reader

end DataClass
