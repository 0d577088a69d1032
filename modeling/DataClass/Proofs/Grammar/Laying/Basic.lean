import DataClass.Proofs.Grammar.Walk.Bodies
import DataClass.Proofs.Program.Laid
namespace DataClass

namespace Grammar

/-- The cursor is in front of the token with this index, behind all of those before it. -/
structure Cursor.At (tokens : List Token) (position : Nat) (cursor : Cursor) : Prop where
  rest : cursor.rest = tokens.drop position
  previous : cursor.previous = (tokens.take position).getLast?.map Token.span
  within : position ≤ tokens.length

namespace Cursor

variable {tokens : List Token} {position : Nat} {cursor : Cursor}

theorem At.token (place : cursor.At tokens position) (more : cursor.current.kind ≠ .endOfFile) :
    tokens[position]? = some cursor.current := by
  rw [current, place.rest, List.head?_drop] at more ⊢
  cases found : tokens[position]? with
  | none => simp [found] at more
  | some token => rfl

theorem At.current (place : cursor.At tokens position) {token : Token}
    (found : tokens[position]? = some token) : cursor.current = token := by
  rw [Cursor.current, place.rest, List.head?_drop, found]
  rfl

theorem At.previousSpan {index : Nat} (place : cursor.At tokens (index + 1)) {token : Token}
    (found : tokens[index]? = some token) : cursor.previousSpan = token.span := by
  rw [Cursor.previousSpan, place.previous, List.take_add_one, found, Option.toList_some,
    List.getLast?_concat]
  rfl

theorem at_of_passed {token : Token} {rest : List Token} {reported : List Diagnostic}
    (ahead : tokens.drop position = token :: rest) :
    At tokens (position + 1) ⟨some token.span, rest, reported⟩ := by
  have found : tokens[position]? = some token := by rw [← List.head?_drop, ahead]; rfl
  refine ⟨?_, ?_, (List.getElem?_eq_some_iff.mp found).1⟩
  · rw [← List.tail_drop, ahead]
    rfl
  · rw [List.take_add_one, found]
    simp

theorem At.step (place : cursor.At tokens position) (more : cursor.current.kind ≠ .endOfFile) :
    cursor.step.At tokens (position + 1) := by
  obtain ⟨previous, ahead, reported⟩ := cursor
  have stands : ahead = tokens.drop position := place.rest
  cases ahead with
  | nil => exact absurd rfl more
  | cons token rest =>
      have known : token.kind ≠ .endOfFile := more
      rw [Cursor.step]
      simp only [if_neg known]
      exact at_of_passed stands.symm

/-- Going on behind a fault. -/
theorem exists_at_skip (recovery : Recovery) (moved : Bool) (depth : Nat) (reported : List Diagnostic)
    {previous : Option Span} {rest : List Token} (place : At tokens position ⟨previous, rest, reported⟩) :
    ∃ stop, position ≤ stop ∧ At tokens stop ⟨(recovery.skip moved depth previous rest).1,
      (recovery.skip moved depth previous rest).2, reported⟩ := by
  induction rest generalizing moved depth previous position with
  | nil => exact ⟨position, Nat.le_refl _, place⟩
  | cons token rest ih =>
      cases stop : recovery.isStop moved depth token.kind with
      | true =>
          rw [Recovery.skip_of_stop stop]
          exact ⟨position, Nat.le_refl _, place⟩
      | false =>
          have next : At tokens (position + 1) ⟨some token.span, rest, reported⟩ :=
            at_of_passed place.rest.symm
          rw [Recovery.skip_of_past stop]
          cases Recovery.depthBehind? depth token.kind with
          | none => exact ⟨position + 1, Nat.le_succ _, next⟩
          | some deeper =>
              obtain ⟨stop, onward, there⟩ := ih true deeper next
              exact ⟨stop, Nat.le_trans (Nat.le_succ _) onward, there⟩

end Cursor

namespace Reader

/-! What is read between two places. A reader gets from one index to a later one, and the value that it
reads there is as wanted. -/

variable {α β : Type}

def Lays (tokens : List Token) (reader : Reader α) (position : Nat) (wanted : α → Nat → Prop) : Prop :=
  ∀ cursor : Cursor, cursor.At tokens position → ∃ stop, position ≤ stop ∧
    (reader cursor).next.At tokens stop ∧
      ∀ result next, reader cursor = .value result next → wanted result stop

/-- The reader reads parts that stand where it begins, wherever that is. -/
def LaysPart (tokens : List Token) (extent : α → Extent) (reader : Reader α) : Prop :=
  ∀ position, Lays tokens reader position fun value stop => (extent value).Laid tokens position stop

variable {tokens : List Token} {position first : Nat} {wanted : α → Nat → Prop} {got : β → Nat → Prop}

theorem lays_pure {result : α} (good : wanted result position) :
    Lays tokens (pure result) position wanted := by
  intro cursor place
  refine ⟨position, Nat.le_refl _, place, ?_⟩
  rintro _ _ ⟨⟩
  exact good

theorem lays_fail (fault : Diagnostic) : Lays tokens (fail fault) position wanted := by
  intro cursor place
  refine ⟨position, Nat.le_refl _, place, ?_⟩
  rintro _ _ ⟨⟩

theorem lays_failExpected (expected : String) :
    Lays tokens (failExpected expected) position wanted := by
  intro cursor place
  refine ⟨position, Nat.le_refl _, place, ?_⟩
  rintro _ _ ⟨⟩

theorem Lays.bind {reader : Reader β} {following : β → Reader α} (start : Lays tokens reader position got)
    (later : ∀ result middle, position ≤ middle → got result middle →
      Lays tokens (following result) middle wanted) :
    Lays tokens (reader >>= following) position wanted := by
  intro cursor place
  obtain ⟨middle, onward, there, good⟩ := start cursor place
  cases here : reader cursor with
  | value result next =>
      rw [here] at there
      obtain ⟨stop, further, last, fine⟩ := later result middle onward (good result next here) next there
      rw [bind_value here]
      exact ⟨stop, Nat.le_trans onward further, last, fine⟩
  | failure fault next =>
      rw [here] at there
      rw [bind_failure here]
      refine ⟨middle, onward, there, ?_⟩
      rintro _ _ ⟨⟩

theorem Lays.map {reader : Reader β} {build : β → α} (start : Lays tokens reader position got)
    (good : ∀ result stop, position ≤ stop → got result stop → wanted (build result) stop) :
    Lays tokens (reader >>= fun result => pure (build result)) position wanted :=
  start.bind fun result stop onward read => lays_pure (good result stop onward read)

theorem Lays.weaken {reader : Reader α} {stronger : α → Nat → Prop}
    (start : Lays tokens reader position stronger)
    (weaken : ∀ result stop, position ≤ stop → stronger result stop → wanted result stop) :
    Lays tokens reader position wanted := by
  intro cursor place
  obtain ⟨stop, onward, there, good⟩ := start cursor place
  exact ⟨stop, onward, there, fun result next read => weaken result stop onward (good result next read)⟩

/-! Looking around, and going on from there. -/

theorem lays_current {following : Token → Reader α}
    (later : ∀ token, (token.kind ≠ .endOfFile → tokens[position]? = some token) →
      (∀ other, tokens[position]? = some other → other = token) →
      Lays tokens (following token) position wanted) :
    Lays tokens (current >>= following) position wanted := by
  intro cursor place
  exact later cursor.current place.token (fun other here => (place.current here).symm) cursor place

theorem lays_currentKind {following : TokenKind → Reader α}
    (later : ∀ kind, (kind ≠ .endOfFile → ∃ token, tokens[position]? = some token ∧ token.kind = kind) →
      Lays tokens (following kind) position wanted) :
    Lays tokens (currentKind >>= following) position wanted := by
  intro cursor place
  exact later cursor.current.kind (fun more => ⟨cursor.current, place.token more, rfl⟩) cursor place

theorem lays_remaining {following : Nat → Reader α}
    (later : ∀ turns, Lays tokens (following turns) position wanted) :
    Lays tokens (remaining >>= following) position wanted :=
  fun cursor place => later cursor.rest.length cursor place

theorem lays_isNext {kind : TokenKind} {following : Bool → Reader α}
    (later : ∀ here, Lays tokens (following here) position wanted) :
    Lays tokens (isNext kind >>= following) position wanted :=
  fun cursor place => later (cursor.current.kind == kind) cursor place

theorem lays_previousSpan {following : Span → Reader α} (begun : 0 < position)
    (later : ∀ span, Token.Spans tokens (position - 1) position span →
      Lays tokens (following span) position wanted) :
    Lays tokens (previousSpan >>= following) position wanted := by
  intro cursor place
  refine later cursor.previousSpan ?_ cursor place
  obtain ⟨position, rfl⟩ := Nat.exists_eq_add_one.mpr begun
  have found := List.getElem?_eq_getElem (show position < tokens.length from place.within)
  rw [place.previousSpan found]
  exact Token.spans_token found

/-- The range that began with a token that has been taken. -/
theorem lays_spanFrom {start : Nat} {following : Span → Reader α} (ordered : Token.Ordered tokens)
    (begins : Token.Begins tokens first start) (begun : first < position)
    (later : ∀ span, Token.Spans tokens first position span →
      Lays tokens (following span) position wanted) :
    Lays tokens (spanFrom start >>= following) position wanted := by
  intro cursor place
  refine later ⟨start, max cursor.previousSpan.stop start⟩ ?_ cursor place
  obtain ⟨position, rfl⟩ := Nat.exists_eq_add_one_of_ne_zero (Nat.ne_zero_of_lt begun)
  have within : position < tokens.length := place.within
  have found := List.getElem?_eq_getElem within
  have opening := List.getElem?_eq_getElem (Nat.lt_of_le_of_lt (Nat.le_of_lt_succ begun) within)
  have forward := ordered.start_le_stop opening found (Nat.le_of_lt_succ begun)
  rw [begins _ opening] at forward
  refine ⟨begun, ?_, ?_⟩
  · rw [opening, Option.map_some, begins _ opening]
  · rw [place.previousSpan found, Nat.max_eq_left forward]
    exact (Token.spans_token found).stop

/-! Taking tokens, and going on behind them. -/

theorem lays_advance {token : Token} {following : Unit → Reader α}
    (found : tokens[position]? = some token) (more : token.kind ≠ .endOfFile)
    (later : Lays tokens (following ()) (position + 1) wanted) :
    Lays tokens (advance >>= following) position wanted := by
  intro cursor place
  rw [← place.current found] at more
  obtain ⟨stop, onward, there, good⟩ := later cursor.step (place.step more)
  exact ⟨stop, Nat.le_trans (Nat.le_succ _) onward, there, good⟩

theorem lays_accept {kind : TokenKind} (more : kind ≠ .endOfFile) :
    Lays tokens (accept kind) position fun here stop =>
      stop = if here then position + 1 else position := by
  intro cursor place
  by_cases here : cursor.current.kind = kind
  · have accepts : accept kind cursor = .value true cursor.step := by simp [accept, here]
    rw [accepts]
    refine ⟨position + 1, Nat.le_succ _, place.step (here ▸ more), ?_⟩
    rintro _ _ ⟨⟩
    rfl
  · have declines : accept kind cursor = .value false cursor := by simp [accept, here]
    rw [declines]
    refine ⟨position, Nat.le_refl _, place, ?_⟩
    rintro _ _ ⟨⟩
    rfl

theorem lays_accept_bind {kind : TokenKind} {found other : Reader α} (more : kind ≠ .endOfFile)
    (yes : Lays tokens found (position + 1) wanted) (no : Lays tokens other position wanted) :
    Lays tokens (accept kind >>= fun here => if here = true then found else other) position wanted := by
  refine (lays_accept more).bind fun here middle _ same => ?_
  subst same
  cases here with
  | true => exact yes
  | false => exact no

theorem lays_expect {kind : TokenKind} {following : Unit → Reader α} (expected : String)
    (more : kind ≠ .endOfFile) (later : Lays tokens (following ()) (position + 1) wanted) :
    Lays tokens (expect kind expected >>= following) position wanted := by
  have taken : Lays tokens (expect kind expected) position fun _ stop => stop = position + 1 :=
    lays_accept_bind more (lays_pure rfl) (lays_failExpected expected)
  refine taken.bind fun _ _ _ same => ?_
  subst same
  exact later

theorem lays_identifier {following : String → Reader α}
    (later : ∀ name, Lays tokens (following name) (position + 1) wanted) :
    Lays tokens (identifier >>= following) position wanted := by
  have taken : Lays tokens identifier position fun _ stop => stop = position + 1 := by
    refine lays_currentKind fun kind found => ?_
    cases kind with
    | identifier name =>
        obtain ⟨token, found, known⟩ := found (by simp)
        exact lays_advance found (by simp [known]) (lays_pure rfl)
    | _ => exact lays_failExpected _
  refine taken.bind fun name _ _ same => ?_
  subst same
  exact later name

theorem lays_segments (turns : Nat) : Lays tokens (segments turns) position fun _ _ => True := by
  induction turns generalizing position with
  | zero => exact lays_pure trivial
  | succ turns ih =>
      refine lays_accept_bind (by simp) ?_ (lays_pure trivial)
      exact lays_identifier fun _ => ih.map fun _ _ _ _ => trivial

theorem lays_dottedPath : Lays tokens dottedPath position fun _ stop => position < stop :=
  lays_identifier fun _ => lays_remaining fun _ => (lays_segments _).map fun _ _ onward _ => onward

/-! Lists of things, and bodies. -/

section Lists

variable {item part : Reader α} {extent : α → Extent}

theorem lays_itemsAfterComma (items : LaysPart tokens extent item) (turns : Nat) :
    Lays tokens (itemsAfterComma item turns) position fun values stop =>
      Extent.LaidAll tokens position stop (values.map extent) := by
  induction turns generalizing position with
  | zero => exact lays_pure (.nil (Nat.le_refl _))
  | succ turns ih =>
      refine lays_accept_bind (by simp) ?_ (lays_pure (.nil (Nat.le_refl _)))
      refine (items _).bind fun value middle _ here => ih.map fun values stop _ behind => ?_
      exact .cons (Nat.le_succ _) here behind

theorem lays_commaSeparated (items : LaysPart tokens extent item) :
    Lays tokens (commaSeparated item) position fun values stop =>
      Extent.LaidAll tokens position stop (values.map extent) := by
  refine (items _).bind fun value middle _ here => lays_remaining fun _ => ?_
  exact (lays_itemsAfterComma items _).map fun values stop _ behind => .cons (Nat.le_refl _) here behind

/-- The items stand in front of the closing parenthesis. -/
theorem lays_parenthesized (opening closing : String) (items : LaysPart tokens extent item) :
    Lays tokens (parenthesized opening closing item) position fun values stop =>
      0 < stop ∧ Extent.LaidAll tokens position (stop - 1) (values.map extent) := by
  refine lays_expect opening (by simp) ?_
  refine lays_accept_bind (by simp) (lays_pure ⟨Nat.succ_pos _, .nil (by omega)⟩) ?_
  refine (lays_commaSeparated items).bind fun values close onward inside => ?_
  refine lays_expect closing (by simp) (lays_pure ⟨Nat.succ_pos _, ?_⟩)
  exact inside.widen (Nat.le_succ _) (Nat.le_refl _)

theorem lays_attempt {got : α → Nat → Prop} (inside : Lays tokens part position got) :
    Lays tokens (attempt part) position fun tried stop => ∀ value, tried = .ok value → got value stop := by
  intro cursor place
  obtain ⟨stop, onward, there, good⟩ := inside cursor place
  cases here : part cursor with
  | value result next =>
      rw [here] at there
      have tried : attempt part cursor = .value (.ok result) next := by rw [attempt, here]
      rw [tried]
      refine ⟨stop, onward, there, ?_⟩
      rintro _ _ ⟨⟩ _ ⟨⟩
      exact good result next here
  | failure fault next =>
      rw [here] at there
      have tried : attempt part cursor = .value (.error fault) next := by rw [attempt, here]
      rw [tried]
      refine ⟨stop, onward, there, ?_⟩
      rintro _ _ ⟨⟩ _ ⟨⟩

theorem lays_report (fault : Diagnostic) {following : Unit → Reader α}
    (later : Lays tokens (following ()) position wanted) :
    Lays tokens (report fault >>= following) position wanted :=
  fun _ place => later _ ⟨place.rest, place.previous, place.within⟩

theorem lays_recover (recovery : Recovery) :
    Lays tokens (recover recovery) position fun _ _ => True := by
  intro cursor place
  obtain ⟨stop, onward, there⟩ := Cursor.exists_at_skip recovery false 0 cursor.reported place
  exact ⟨stop, onward, there, fun _ _ _ => trivial⟩

/-- The parts that are left out stand between the others. -/
theorem lays_parts (recovery : Recovery) (inside : LaysPart tokens extent part) (turns : Nat) :
    Lays tokens (parts recovery part turns) position fun values stop =>
      Extent.LaidAll tokens position stop (values.map extent) := by
  induction turns generalizing position with
  | zero => exact lays_pure (.nil (Nat.le_refl _))
  | succ turns ih =>
      refine lays_currentKind fun _ _ => ?_
      split
      · exact lays_pure (.nil (Nat.le_refl _))
      · refine (lays_attempt (inside _)).bind fun tried middle onward here => ?_
        cases tried with
        | ok value =>
            exact ih.map fun values stop _ behind => .cons (Nat.le_refl _) (here value rfl) behind
        | error fault =>
            refine lays_report fault ((lays_recover recovery).bind fun _ again further _ => ?_)
            refine ih.weaken fun values stop _ behind => ?_
            exact behind.widen (Nat.le_trans onward further) (Nat.le_refl _)

theorem lays_braced (recovery : Recovery) (opening closing : String) (inside : LaysPart tokens extent part) :
    Lays tokens (braced recovery opening closing part) position fun values stop =>
      position < stop ∧ Extent.LaidAll tokens position stop (values.map extent) := by
  refine lays_expect opening (by simp) (lays_remaining fun _ => ?_)
  refine (lays_parts recovery inside _).bind fun values last onward parts => ?_
  refine lays_expect closing (by simp) (lays_pure ⟨by omega, ?_⟩)
  exact parts.widen (Nat.le_succ _) (Nat.le_succ _)

end Lists

end Reader

end Grammar

end DataClass
