import DataClass.Proofs.Grammar.Walk.Bodies
namespace DataClass

namespace Token

/-- The last of some tokens marks the end. -/
def Ended (tokens : List Token) : Prop := ∃ token ∈ tokens.getLast?, token.kind = .endOfFile

variable {token : Token} {tokens rest : List Token}

theorem Ended.exists_cons (ended : Ended tokens) : ∃ token rest, tokens = token :: rest := by
  cases tokens with
  | nil => simp [Ended] at ended
  | cons token rest => exact ⟨token, rest, rfl⟩

/-- Behind a token that does not mark the end there is one that does. -/
theorem Ended.tail (ended : Ended (token :: rest)) (more : token.kind ≠ .endOfFile) : Ended rest := by
  cases rest with
  | nil => simp [Ended, more] at ended
  | cons next rest => rwa [Ended, List.getLast?_cons_cons] at ended

theorem Ended.shift (ended : Ended tokens) (offset : Nat) : Ended (tokens.map (Token.shift offset)) := by
  obtain ⟨last, found, ends⟩ := ended
  exact ⟨last.shift offset, by rw [List.getLast?_map, found]; rfl, ends⟩

end Token

namespace Grammar

namespace Cursor

/-- The same place in a text that has `offset` more bytes in front. -/
def shift (offset : Nat) (cursor : Cursor) : Cursor where
  previous := cursor.previous.map (·.shift offset)
  rest := cursor.rest.map (Token.shift offset)
  reported := cursor.reported.map (·.shift offset)

variable {cursor : Cursor} {offset : Nat}

theorem current_shift (ended : Token.Ended cursor.rest) :
    (cursor.shift offset).current = cursor.current.shift offset := by
  obtain ⟨token, rest, ahead⟩ := ended.exists_cons
  rw [current, current, shift, ahead]
  rfl

theorem previousSpan_shift (ended : Token.Ended cursor.rest) :
    (cursor.shift offset).previousSpan = cursor.previousSpan.shift offset := by
  rw [previousSpan, current_shift ended, previousSpan, shift]
  cases cursor.previous <;> rfl

theorem ended_step (ended : Token.Ended cursor.rest) : Token.Ended cursor.step.rest := by
  obtain ⟨previous, tokens, reported⟩ := cursor
  obtain ⟨token, rest, rfl⟩ := ended.exists_cons
  by_cases ends : token.kind = .endOfFile
  · simpa [step, ends] using ended
  · simpa [step, ends] using ended.tail ends

theorem step_shift (cursor : Cursor) (offset : Nat) :
    (cursor.shift offset).step = cursor.step.shift offset := by
  obtain ⟨previous, tokens, reported⟩ := cursor
  cases tokens with
  | nil => rfl
  | cons token rest =>
      have same : (token.shift offset).kind = token.kind := rfl
      by_cases ends : token.kind = .endOfFile
      · simp [step, shift, same, ends]
      · simp [step, shift, ends, Token.shift]

end Cursor

namespace Recovery

variable (recovery : Recovery) (moved : Bool) (depth : Nat) (previous : Option Span)

theorem skip_shift (offset : Nat) (tokens : List Token) :
    recovery.skip moved depth (previous.map (·.shift offset)) (tokens.map (Token.shift offset)) =
      ((recovery.skip moved depth previous tokens).1.map (·.shift offset),
        (recovery.skip moved depth previous tokens).2.map (Token.shift offset)) := by
  induction tokens generalizing moved depth previous with
  | nil => rfl
  | cons token rest ih =>
      have kind : (token.shift offset).kind = token.kind := rfl
      rw [List.map_cons]
      cases stop : recovery.isStop moved depth token.kind with
      | true => rw [skip_of_stop stop, skip_of_stop (kind ▸ stop), List.map_cons]
      | false =>
          rw [skip_of_past stop, skip_of_past (kind ▸ stop), kind]
          cases depthBehind? depth token.kind with
          | none => rfl
          | some deeper => exact ih true deeper (some token.span)

theorem ended_skip {tokens : List Token} (ended : Token.Ended tokens) :
    Token.Ended (recovery.skip moved depth previous tokens).2 := by
  induction tokens generalizing moved depth previous with
  | nil => exact ended
  | cons token rest ih =>
      cases stop : recovery.isStop moved depth token.kind with
      | true => rwa [skip_of_stop stop]
      | false =>
          have more : token.kind ≠ .endOfFile := by
            simp only [isStop, Bool.or_eq_false_iff, beq_eq_false_iff_ne] at stop
            exact stop.1
          rw [skip_of_past stop]
          cases depthBehind? depth token.kind with
          | none => exact ended.tail more
          | some deeper => exact ih true deeper (some token.span) (ended.tail more)

end Recovery

namespace Reader

/-! Reading in a text that has more in front. All that a reader does with the places of the tokens is to
put ranges together, and these are moved along with the tokens. -/

variable {α β γ δ : Type}

/-- Ahead of the end of a text the other reader does what the reader does in a text without the bytes in
front: its value is changed, and everything else is shifted. Neither of them steps over the end. -/
def Shifts (offset : Nat) (change : α → β) (reader : Reader α) (other : Reader β) : Prop :=
  ∀ cursor : Cursor, Token.Ended cursor.rest →
    (∃ result next, Token.Ended next.rest ∧ reader cursor = .value result next ∧
      other (cursor.shift offset) = .value (change result) (next.shift offset)) ∨
    ∃ fault next, Token.Ended next.rest ∧ reader cursor = .failure fault next ∧
      other (cursor.shift offset) = .failure (fault.shift offset) (next.shift offset)

variable {offset : Nat} {change : α → β} {reader : Reader α} {other : Reader β}

theorem shifts_pure {result : α} {result' : β} (same : result' = change result) :
    Shifts offset change (pure result) (pure result') :=
  fun cursor ended => .inl ⟨result, cursor, ended, rfl, by rw [same]; rfl⟩

theorem shifts_fail {fault fault' : Diagnostic} (same : fault' = fault.shift offset) :
    Shifts offset change (fail fault) (fail fault') :=
  fun cursor ended => .inr ⟨fault, cursor, ended, rfl, by rw [same]; rfl⟩

theorem Shifts.bind {change : γ → δ} {change' : α → β} {first : Reader γ} {first' : Reader δ}
    {following : γ → Reader α} {following' : δ → Reader β}
    (start : Shifts offset change first first')
    (later : ∀ result, Shifts offset change' (following result) (following' (change result))) :
    Shifts offset change' (first >>= following) (first' >>= following') := by
  intro cursor ended
  rcases start cursor ended with ⟨result, next, ended, here, there⟩ | ⟨fault, next, ended, here, there⟩
  · rw [bind_value here, bind_value there]
    exact later result next ended
  · exact .inr ⟨fault, next, ended, bind_failure here, bind_failure there⟩

/-- Going on with a value of which both texts have the same. -/
theorem Shifts.andThen {change' : α → β} {first first' : Reader γ} {following : γ → Reader α}
    {following' : γ → Reader β} (start : Shifts offset id first first')
    (later : ∀ result, Shifts offset change' (following result) (following' result)) :
    Shifts offset change' (first >>= following) (first' >>= following') := start.bind later

theorem Shifts.map {change : γ → δ} {change' : α → β} {first : Reader γ} {first' : Reader δ}
    {build : γ → α} {build' : δ → β} (start : Shifts offset change first first')
    (same : ∀ result, build' (change result) = change' (build result)) :
    Shifts offset change' (first >>= fun result => pure (build result))
      (first' >>= fun result => pure (build' result)) :=
  start.bind fun result => shifts_pure (same result)

theorem shifts_current : Shifts offset (Token.shift offset) current current :=
  fun cursor ended => .inl ⟨cursor.current, cursor, ended, rfl, by
    rw [current, Cursor.current_shift ended]⟩

theorem shifts_currentKind : Shifts offset id currentKind currentKind :=
  fun cursor ended => .inl ⟨cursor.current.kind, cursor, ended, rfl, by
    rw [currentKind, Cursor.current_shift ended]
    rfl⟩

theorem shifts_remaining : Shifts offset id remaining remaining :=
  fun cursor ended => .inl ⟨cursor.rest.length, cursor, ended, rfl, by
    simp [remaining, Cursor.shift]⟩

theorem shifts_previousSpan : Shifts offset (·.shift offset) previousSpan previousSpan :=
  fun cursor ended => .inl ⟨cursor.previousSpan, cursor, ended, rfl, by
    rw [previousSpan, Cursor.previousSpan_shift ended]⟩

theorem shifts_spanFrom {start start' : Nat} (same : start' = start + offset) :
    Shifts offset (·.shift offset) (spanFrom start) (spanFrom start') :=
  fun cursor ended => .inl ⟨_, cursor, ended, rfl, by
    rw [spanFrom, Cursor.previousSpan_shift ended, same]
    simp only [Span.shift, Nat.add_max_add_right]⟩

theorem shifts_advance : Shifts offset id advance advance :=
  fun cursor ended => .inl ⟨(), cursor.step, Cursor.ended_step ended, rfl, by
    rw [advance, cursor.step_shift]⟩

theorem shifts_failExpected (expected : String) :
    Shifts offset change (failExpected expected) (failExpected expected) :=
  fun cursor ended => .inr ⟨_, cursor, ended, rfl, by
    rw [failExpected, Cursor.current_shift ended]
    rfl⟩

theorem shifts_isNext (kind : TokenKind) : Shifts offset id (isNext kind) (isNext kind) :=
  fun cursor ended => .inl ⟨_, cursor, ended, rfl, by
    rw [isNext, Cursor.current_shift ended]
    rfl⟩

theorem shifts_accept (kind : TokenKind) : Shifts offset id (accept kind) (accept kind) := by
  intro cursor ended
  have same : (cursor.shift offset).current.kind = cursor.current.kind := by
    rw [Cursor.current_shift ended]
    rfl
  left
  by_cases here : cursor.current.kind = kind
  · exact ⟨true, cursor.step, Cursor.ended_step ended, by simp [accept, here],
      by simp [accept, here, same, cursor.step_shift]⟩
  · exact ⟨false, cursor, ended, by simp [accept, here], by simp [accept, here, same]⟩

theorem shifts_ite {condition : Prop} [Decidable condition] {yes no : Reader α} {yes' no' : Reader β}
    (here : Shifts offset change yes yes') (there : Shifts offset change no no') :
    Shifts offset change (if condition then yes else no) (if condition then yes' else no') := by
  split
  · exact here
  · exact there

theorem shifts_expect (kind : TokenKind) (expected : String) :
    Shifts offset id (expect kind expected) (expect kind expected) :=
  (shifts_accept kind).andThen fun _ => shifts_ite (shifts_pure rfl) (shifts_failExpected expected)

theorem shifts_identifier : Shifts offset id identifier identifier := by
  refine shifts_currentKind.andThen fun kind => ?_
  cases kind with
  | identifier name => exact shifts_advance.map fun _ => rfl
  | _ => exact shifts_failExpected _

theorem shifts_segments (turns : Nat) : Shifts offset id (segments turns) (segments turns) := by
  induction turns with
  | zero => exact shifts_pure rfl
  | succ turns ih =>
      refine (shifts_accept _).andThen fun _ => shifts_ite ?_ (shifts_pure rfl)
      exact shifts_identifier.andThen fun _ => ih.map fun _ => rfl

theorem shifts_dottedPath : Shifts offset id dottedPath dottedPath :=
  shifts_identifier.andThen fun _ => shifts_remaining.andThen fun turns =>
    (shifts_segments turns).map fun _ => rfl

/-! Lists of things. -/

variable {item : Reader α} {item' : Reader β}

theorem shifts_itemsAfterComma (items : Shifts offset change item item') (turns : Nat) :
    Shifts offset (List.map change) (itemsAfterComma item turns) (itemsAfterComma item' turns) := by
  induction turns with
  | zero => exact shifts_pure rfl
  | succ turns ih =>
      refine (shifts_accept _).andThen fun _ => shifts_ite ?_ (shifts_pure rfl)
      exact items.bind fun _ => ih.map fun _ => rfl

theorem shifts_commaSeparated (items : Shifts offset change item item') :
    Shifts offset (List.map change) (commaSeparated item) (commaSeparated item') :=
  items.bind fun _ => shifts_remaining.andThen fun turns =>
    (shifts_itemsAfterComma items turns).map fun _ => rfl

theorem shifts_parenthesized (opening closing : String) (items : Shifts offset change item item') :
    Shifts offset (List.map change) (parenthesized opening closing item)
      (parenthesized opening closing item') :=
  (shifts_expect _ opening).andThen fun _ => (shifts_accept _).andThen fun _ =>
    shifts_ite (shifts_pure rfl) ((shifts_commaSeparated items).bind fun _ =>
      (shifts_expect _ closing).map fun _ => rfl)

/-! Going on after a fault. -/

variable {part : Reader α} {part' : Reader β}

theorem shifts_recover (recovery : Recovery) : Shifts offset id (recover recovery) (recover recovery) := by
  intro cursor ended
  left
  refine ⟨(), { cursor with
    previous := (recovery.skip false 0 cursor.previous cursor.rest).1
    rest := (recovery.skip false 0 cursor.previous cursor.rest).2 },
    recovery.ended_skip false 0 cursor.previous ended, rfl, ?_⟩
  simp only [recover, Cursor.shift, recovery.skip_shift, id]

theorem shifts_attempt (inside : Shifts offset change part part') :
    Shifts offset (fun tried => (tried.mapError (·.shift offset)).map change) (attempt part)
      (attempt part') := by
  intro cursor ended
  left
  rcases inside cursor ended with ⟨result, next, ended, here, there⟩ | ⟨fault, next, ended, here, there⟩
  · exact ⟨.ok result, next, ended, by rw [attempt, here], by rw [attempt, there]; rfl⟩
  · exact ⟨.error fault, next, ended, by rw [attempt, here], by rw [attempt, there]; rfl⟩

theorem shifts_report (fault : Diagnostic) :
    Shifts offset id (report fault) (report (fault.shift offset)) :=
  fun cursor ended => .inl ⟨(), { cursor with reported := fault :: cursor.reported }, ended, rfl, rfl⟩

theorem shifts_parts (recovery : Recovery) (inside : Shifts offset change part part') (turns : Nat) :
    Shifts offset (List.map change) (parts recovery part turns) (parts recovery part' turns) := by
  induction turns with
  | zero => exact shifts_pure rfl
  | succ turns ih =>
      refine shifts_currentKind.andThen fun _ => shifts_ite (shifts_pure rfl) ?_
      refine (shifts_attempt inside).bind fun tried => ?_
      cases tried with
      | ok first => exact ih.map fun _ => rfl
      | error fault =>
          exact (shifts_report fault).andThen fun _ => (shifts_recover recovery).andThen fun _ => ih

theorem shifts_braced (recovery : Recovery) (opening closing : String)
    (inside : Shifts offset change part part') :
    Shifts offset (List.map change) (braced recovery opening closing part)
      (braced recovery opening closing part') :=
  (shifts_expect _ opening).andThen fun _ => shifts_remaining.andThen fun turns =>
    (shifts_parts recovery inside turns).bind fun _ => (shifts_expect _ closing).map fun _ => rfl

end Reader

end Grammar

end DataClass
