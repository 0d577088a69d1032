import DataClass.Proofs.Grammar.Taking
namespace DataClass.Grammar

namespace Cursor

theorem kinds_eq_step {cursor : Cursor} {kind : TokenKind} (here : cursor.current.kind = kind)
    (more : kind ≠ .endOfFile) : cursor.kinds = kind :: cursor.step.kinds := by
  obtain ⟨previous, tokens, reported⟩ := cursor
  cases tokens with
  | nil => exact absurd here.symm more
  | cons token rest =>
      obtain rfl : token.kind = kind := here
      simp [step, more, kinds]

end Cursor

namespace Reader

/-! What has been read when a reader succeeded: the tokens that were taken, and a value that fits
them. -/

variable {α β : Type}

/-- Where the reader succeeds at a cursor it has reported nothing, and the value it read and the kinds
of the tokens it took are as wanted. -/
def Consumes (reader : Reader α) (cursor : Cursor) (wanted : α → List TokenKind → Prop) : Prop :=
  ∀ result next, reader cursor = .value result next → next.reported = cursor.reported ∧
    ∃ taken, cursor.kinds = taken ++ next.kinds ∧ wanted result taken

variable {cursor : Cursor} {wanted : α → List TokenKind → Prop}
  {got : β → List TokenKind → Prop}

theorem consumes_pure {result : α} (good : wanted result []) :
    Consumes (pure result) cursor wanted := by
  rintro _ _ ⟨⟩
  exact ⟨rfl, [], rfl, good⟩

theorem consumes_fail (fault : Diagnostic) : Consumes (fail fault) cursor wanted := by
  rintro _ _ ⟨⟩

theorem consumes_failExpected (expected : String) :
    Consumes (failExpected expected) cursor wanted := by
  rintro _ _ ⟨⟩

theorem exists_first {reader : Reader β} {following : β → Reader α} {result : α} {next : Cursor}
    (read : (reader >>= following) cursor = .value result next) :
    ∃ first middle, reader cursor = .value first middle ∧
      following first middle = .value result next := by
  cases here : reader cursor with
  | value first middle =>
      rw [bind_value here] at read
      exact ⟨first, middle, rfl, read⟩
  | failure fault middle =>
      rw [bind_failure here] at read
      cases read

theorem Consumes.bind {reader : Reader β} {following : β → Reader α}
    (first : Consumes reader cursor got)
    (later : ∀ result next taken, got result taken →
      Consumes (following result) next fun final more => wanted final (taken ++ more)) :
    Consumes (reader >>= following) cursor wanted := by
  intro result next read
  obtain ⟨value, middle, readFirst, readLater⟩ := exists_first read
  obtain ⟨quiet, taken, front, good⟩ := first value middle readFirst
  obtain ⟨quietLater, more, behind, goodLater⟩ := later value middle taken good result next readLater
  exact ⟨quietLater.trans quiet, taken ++ more, by rw [front, behind, List.append_assoc], goodLater⟩

theorem Consumes.weaken {reader : Reader α} {weaker : α → List TokenKind → Prop}
    (consumed : Consumes reader cursor wanted)
    (weaken : ∀ result taken, wanted result taken → weaker result taken) :
    Consumes reader cursor weaker := by
  intro result next read
  obtain ⟨quiet, taken, front, good⟩ := consumed result next read
  exact ⟨quiet, taken, front, weaken result taken good⟩

theorem consumes_advance {kind : TokenKind} (here : cursor.current.kind = kind)
    (more : kind ≠ .endOfFile) : Consumes advance cursor fun _ taken => taken = [kind] := by
  rintro _ _ ⟨⟩
  exact ⟨cursor.reported_step, [kind], Cursor.kinds_eq_step here more, rfl⟩

theorem consumes_current {following : Token → Reader α}
    (later : Consumes (following cursor.current) cursor wanted) :
    Consumes (current >>= following) cursor wanted := later

theorem consumes_currentKind {following : TokenKind → Reader α}
    (later : Consumes (following cursor.current.kind) cursor wanted) :
    Consumes (currentKind >>= following) cursor wanted := later

theorem consumes_remaining {following : Nat → Reader α}
    (later : Consumes (following cursor.rest.length) cursor wanted) :
    Consumes (remaining >>= following) cursor wanted := later

theorem consumes_spanFrom {following : Span → Reader α} (start : Nat)
    (later : ∀ span, Consumes (following span) cursor wanted) :
    Consumes (spanFrom start >>= following) cursor wanted := later _

theorem consumes_isNext {following : Bool → Reader α} {kind : TokenKind}
    (later : Consumes (following (cursor.current.kind == kind)) cursor wanted) :
    Consumes (isNext kind >>= following) cursor wanted := later

theorem consumes_accept {kind : TokenKind} (more : kind ≠ .endOfFile) :
    Consumes (accept kind) cursor fun here taken => taken = if here then [kind] else [] := by
  intro result next read
  unfold accept at read
  split at read
  · next here =>
      cases read
      exact ⟨cursor.reported_step, [kind], Cursor.kinds_eq_step (eq_of_beq here) more, rfl⟩
  · cases read
    exact ⟨rfl, [], rfl, rfl⟩

theorem consumes_accept_bind {kind : TokenKind} {found other : Reader α} (more : kind ≠ .endOfFile)
    (yes : ∀ next, Consumes found next fun final taken => wanted final (kind :: taken))
    (no : Consumes other cursor wanted) :
    Consumes (accept kind >>= fun here => if here = true then found else other) cursor wanted := by
  intro result next read
  obtain ⟨here, middle, first, later⟩ := exists_first read
  obtain ⟨quiet, taken, front, same⟩ := consumes_accept more here middle first
  cases here with
  | true =>
      obtain ⟨quietLater, rest, behind, good⟩ := yes middle result next later
      exact ⟨quietLater.trans quiet, kind :: rest, by rw [front, behind, same]; rfl, good⟩
  | false =>
      obtain rfl : cursor = middle := by
        unfold accept at first
        split at first
        · cases first
        · cases first
          rfl
      exact no result next later

theorem consumes_expect {kind : TokenKind} (expected : String) (more : kind ≠ .endOfFile) :
    Consumes (expect kind expected) cursor fun _ taken => taken = [kind] :=
  consumes_accept_bind more (fun _ => consumes_pure rfl) (consumes_failExpected _)

theorem consumes_identifier :
    Consumes identifier cursor fun name taken => taken = [.identifier name] := by
  refine consumes_currentKind ?_
  cases here : cursor.current.kind with
  | identifier name =>
      refine (consumes_advance here (by simp)).bind fun _ _ taken same => ?_
      exact consumes_pure (by simp [same])
  | _ => exact consumes_failExpected _

theorem consumes_segments (fuel : Nat) :
    Consumes (segments fuel) cursor fun names taken => taken = TokenKind.afterPoints names := by
  induction fuel generalizing cursor with
  | zero => exact consumes_pure rfl
  | succ fuel ih =>
      refine consumes_accept_bind (by simp) (fun _ => ?_) (consumes_pure rfl)
      refine consumes_identifier.bind fun name _ taken first => ?_
      refine ih.bind fun names _ more later => consumes_pure ?_
      rw [first, later, TokenKind.afterPoints_cons]
      simp

theorem consumes_dottedPath :
    Consumes dottedPath cursor fun path taken =>
      path ≠ [] ∧ taken = TokenKind.pathKinds path := by
  refine consumes_identifier.bind fun name _ taken first => ?_
  refine consumes_remaining ((consumes_segments _).bind fun names _ more later => consumes_pure ?_)
  exact ⟨by simp, by rw [first, later]; simp [TokenKind.pathKinds]⟩

/-- An item that was read is good, and the tokens taken are those it is written with. -/
def Exactly (good : α → Prop) (kinds : α → List TokenKind) (value : α) (taken : List TokenKind) :
    Prop := good value ∧ taken = kinds value

theorem consumes_itemsAfterComma {item : Reader α} {good : α → Prop} {kinds : α → List TokenKind}
    (items : ∀ cursor, Consumes item cursor (Exactly good kinds)) (fuel : Nat) :
    Consumes (itemsAfterComma item fuel) cursor
      (Exactly (fun values => ∀ value ∈ values, good value)
        fun values => TokenKind.afterCommas (values.map kinds)) := by
  induction fuel generalizing cursor with
  | zero => exact consumes_pure ⟨by simp, rfl⟩
  | succ fuel ih =>
      refine consumes_accept_bind (by simp) (fun next => ?_) (consumes_pure ⟨by simp, rfl⟩)
      refine (items next).bind fun value _ taken first => ?_
      refine ih.bind fun values _ more later => consumes_pure ⟨?_, ?_⟩
      · exact List.forall_mem_cons.mpr ⟨first.1, later.1⟩
      · rw [first.2, later.2]
        simp [TokenKind.afterCommas_cons]

theorem consumes_commaSeparated {item : Reader α} {good : α → Prop} {kinds : α → List TokenKind}
    (items : ∀ cursor, Consumes item cursor (Exactly good kinds)) :
    Consumes (commaSeparated item) cursor fun values taken =>
      values ≠ [] ∧ Exactly (fun values => ∀ value ∈ values, good value)
        (fun values => TokenKind.separated (values.map kinds)) values taken := by
  refine (items cursor).bind fun value _ taken first => ?_
  refine consumes_remaining ((consumes_itemsAfterComma items _).bind
    fun values _ more later => consumes_pure ⟨by simp, ?_, ?_⟩)
  · exact List.forall_mem_cons.mpr ⟨first.1, later.1⟩
  · rw [first.2, later.2]
    simp [TokenKind.separated]

theorem consumes_parenthesized {item : Reader α} {good : α → Prop} {kinds : α → List TokenKind}
    (opening closing : String) (items : ∀ cursor, Consumes item cursor (Exactly good kinds)) :
    Consumes (parenthesized opening closing item) cursor
      (Exactly (fun values => ∀ value ∈ values, good value)
        fun values => TokenKind.parenthesized (values.map kinds)) := by
  refine (consumes_expect opening (by simp)).bind fun _ _ taken first => ?_
  subst first
  refine consumes_accept_bind (by simp) (fun _ => consumes_pure ⟨by simp, rfl⟩) ?_
  refine (consumes_commaSeparated items).bind fun values _ taken read => ?_
  refine (consumes_expect closing (by simp)).bind fun _ _ more last => consumes_pure ⟨read.2.1, ?_⟩
  rw [last, read.2.2]
  simp [TokenKind.parenthesized]

end Reader

end DataClass.Grammar
