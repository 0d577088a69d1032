import DataClass.Proofs.Grammar.Laying.Basic
import DataClass.Proofs.Grammar.Shifting.Basic
namespace DataClass

/-- The range is that of some tokens. The first of these has an index from `low` up to `high`. -/
def Token.SpansFrom (tokens : List Token) (low high : Nat) (span : Span) : Prop :=
  ∃ first stop, low ≤ first ∧ first ≤ high ∧ Token.Spans tokens first stop span

namespace Grammar

open Token (Ordered SpansFrom)

/-- The cursor is in front of the token with the index `position`, and has reported nothing but ranges of
tokens. They begin with tokens up to the index `low`, none of them in front of one reported earlier. -/
structure Cursor.Marked (tokens : List Token) (low position : Nat) (cursor : Cursor) : Prop where
  place : cursor.At tokens position
  ended : Token.Ended cursor.rest
  reached : low ≤ position
  faults : ∀ fault ∈ cursor.reported, SpansFrom tokens 0 low fault.span
  rising : cursor.reported.Pairwise fun fault earlier => earlier.span.start ≤ fault.span.start

/-- What a reading that began at the index `position` comes to. The fault of a failure may not begin in front
of what has been reported, and not behind the place where the reading stopped. -/
inductive Outcome.Marked {α : Type} (tokens : List Token) (position : Nat) : Outcome α → Prop where
  | value {result : α} {next : Cursor} {low stop : Nat} (onward : position ≤ stop)
      (marked : next.Marked tokens low stop) : Marked tokens position (.value result next)
  | failure {fault : Diagnostic} {next : Cursor} {low stop : Nat} (onward : position ≤ stop)
      (marked : next.Marked tokens low stop) (spans : SpansFrom tokens low stop fault.span) :
      Marked tokens position (.failure fault next)

variable {tokens : List Token} {low position middle : Nat} {cursor : Cursor}

theorem Outcome.Marked.sooner {α : Type} {outcome : Outcome α} (marked : outcome.Marked tokens middle)
    (onward : position ≤ middle) : outcome.Marked tokens position := by
  cases marked with
  | value further marked => exact .value (Nat.le_trans onward further) marked
  | failure further marked spans => exact .failure (Nat.le_trans onward further) marked spans

namespace Cursor

theorem At.position_eq (one : cursor.At tokens position) (two : cursor.At tokens middle) :
    position = middle := by
  have left := congrArg List.length (one.rest.symm.trans two.rest)
  rw [List.length_drop, List.length_drop] at left
  have := one.within
  have := two.within
  omega

theorem Marked.current (marked : cursor.Marked tokens low position) :
    tokens[position]? = some cursor.current := by
  obtain ⟨token, rest, ahead⟩ := marked.ended.exists_cons
  rw [← List.head?_drop, ← marked.place.rest, Cursor.current, ahead]
  rfl

theorem Marked.spansFrom_current (marked : cursor.Marked tokens low position) :
    SpansFrom tokens low position cursor.current.span :=
  ⟨position, position + 1, marked.reached, Nat.le_refl _, Token.spans_token marked.current⟩

theorem Marked.step (marked : cursor.Marked tokens low position) :
    ∃ stop, position ≤ stop ∧ cursor.step.Marked tokens low stop := by
  by_cases more : cursor.current.kind = .endOfFile
  · have stays : cursor.step = cursor := by
      obtain ⟨previous, ahead, reported⟩ := cursor
      cases ahead with
      | nil => rfl
      | cons token rest => exact if_pos more
    exact ⟨position, Nat.le_refl _, stays.symm ▸ marked⟩
  · have same := reported_step cursor
    exact ⟨position + 1, Nat.le_succ _, marked.place.step more, ended_step marked.ended,
      Nat.le_succ_of_le marked.reached, same ▸ marked.faults, same ▸ marked.rising⟩

end Cursor

namespace Reader

/-! Where the faults of a reader are. Wherever it begins, what it reports is about tokens, and it never
goes back behind a fault that has been reported. -/

variable {α β : Type}

/-- The reader points at tokens if it begins at the index `position`, with nothing reported behind `low`. -/
def PointsAt (tokens : List Token) (low position : Nat) (reader : Reader α) : Prop :=
  ∀ cursor : Cursor, cursor.Marked tokens low position → (reader cursor).Marked tokens position

/-- The reader points at tokens wherever it begins. -/
def Points (tokens : List Token) (reader : Reader α) : Prop :=
  ∀ low position, PointsAt tokens low position reader

theorem PointsAt.bind {first : Reader β} {following : β → Reader α}
    (start : PointsAt tokens low position first)
    (later : ∀ result high middle, position ≤ middle → PointsAt tokens high middle (following result)) :
    PointsAt tokens low position (first >>= following) := by
  intro cursor marked
  have known := start cursor marked
  cases here : first cursor with
  | value result next =>
      rw [here] at known
      rw [bind_value here]
      cases known with
      | value onward marked => exact (later result _ _ onward next marked).sooner onward
  | failure fault next =>
      rw [here] at known
      rw [bind_failure here]
      cases known with
      | failure onward marked spans => exact .failure onward marked spans

theorem Points.bind {first : Reader β} {following : β → Reader α} (start : Points tokens first)
    (later : ∀ result, Points tokens (following result)) : Points tokens (first >>= following) :=
  fun low position => (start low position).bind fun result high middle _ => later result high middle

/-- Going on behind a reader that reports nothing where it succeeds, with what is known of its value. -/
theorem Points.bind_laid {first : Reader β} {following : β → Reader α} {got : β → Nat → Prop}
    {wanted : β → List TokenKind → Prop} (start : Points tokens first)
    (quiet : ∀ cursor, Consumes first cursor wanted) (laid : Lays tokens first position got)
    (later : ∀ result middle, low ≤ position → position ≤ middle → got result middle →
      PointsAt tokens low middle (following result)) :
    PointsAt tokens low position (first >>= following) := by
  intro cursor marked
  have known := start low position cursor marked
  obtain ⟨middle, _, there, good⟩ := laid cursor marked.place
  cases here : first cursor with
  | value result next =>
      rw [here] at known there
      rw [bind_value here]
      cases known with
      | value onward reached =>
          obtain rfl := there.position_eq reached.place
          have same := (quiet cursor result next here).1
          have calm : next.Marked tokens low middle :=
            ⟨there, reached.ended, Nat.le_trans marked.reached onward, same ▸ marked.faults,
              same ▸ marked.rising⟩
          exact (later result middle marked.reached onward (good result next here) next calm).sooner onward
  | failure fault next =>
      rw [here] at known
      rw [bind_failure here]
      cases known with
      | failure onward marked spans => exact .failure onward marked spans

theorem points_pure (result : α) : Points tokens (pure result) :=
  fun _ _ _ marked => .value (Nat.le_refl _) marked

theorem pointsAt_fail {fault : Diagnostic} (spans : SpansFrom tokens low position fault.span) :
    PointsAt tokens low position (fail fault : Reader α) :=
  fun _ marked => .failure (Nat.le_refl _) marked spans

theorem points_failExpected (expected : String) : Points tokens (failExpected expected : Reader α) :=
  fun _ _ _ marked => .failure (Nat.le_refl _) marked marked.spansFrom_current

/-! Looking around, and taking tokens. -/

theorem points_current : Points tokens current :=
  fun _ _ _ marked => .value (Nat.le_refl _) marked

theorem points_currentKind : Points tokens currentKind :=
  fun _ _ _ marked => .value (Nat.le_refl _) marked

/-- Going on with the kind of the token that the reader stands in front of. -/
theorem pointsAt_currentKind {following : TokenKind → Reader α}
    (later : ∀ token, tokens[position]? = some token → PointsAt tokens low position (following token.kind)) :
    PointsAt tokens low position (currentKind >>= following) :=
  fun cursor marked => later cursor.current marked.current cursor marked

theorem points_remaining : Points tokens remaining :=
  fun _ _ _ marked => .value (Nat.le_refl _) marked

theorem points_previousSpan : Points tokens previousSpan :=
  fun _ _ _ marked => .value (Nat.le_refl _) marked

theorem points_spanFrom (start : Nat) : Points tokens (spanFrom start) :=
  fun _ _ _ marked => .value (Nat.le_refl _) marked

theorem points_isNext (kind : TokenKind) : Points tokens (isNext kind) :=
  fun _ _ _ marked => .value (Nat.le_refl _) marked

theorem points_advance : Points tokens advance := by
  intro low position cursor marked
  obtain ⟨stop, onward, there⟩ := marked.step
  exact .value onward there

theorem points_accept (kind : TokenKind) : Points tokens (accept kind) := by
  intro low position cursor marked
  unfold accept
  split
  · obtain ⟨stop, onward, there⟩ := marked.step
    exact .value onward there
  · exact .value (Nat.le_refl _) marked

theorem pointsAt_accept_bind {kind : TokenKind} {found other : Reader α}
    (yes : ∀ middle, position ≤ middle → PointsAt tokens low middle found)
    (no : PointsAt tokens low position other) :
    PointsAt tokens low position (accept kind >>= fun here => if here = true then found else other) := by
  intro cursor marked
  by_cases here : cursor.current.kind = kind
  · have accepts : accept kind cursor = .value true cursor.step := by simp [accept, here]
    rw [bind_value accepts]
    obtain ⟨middle, onward, there⟩ := marked.step
    exact (yes middle onward _ there).sooner onward
  · have declines : accept kind cursor = .value false cursor := by simp [accept, here]
    rw [bind_value declines]
    exact no cursor marked

theorem points_accept_bind {kind : TokenKind} {found other : Reader α} (yes : Points tokens found)
    (no : Points tokens other) :
    Points tokens (accept kind >>= fun here => if here = true then found else other) :=
  fun low position => pointsAt_accept_bind (fun middle _ => yes low middle) (no low position)

theorem points_expect (kind : TokenKind) (expected : String) : Points tokens (expect kind expected) :=
  points_accept_bind (points_pure ()) (points_failExpected expected)

theorem points_identifier : Points tokens identifier := by
  refine points_currentKind.bind fun kind => ?_
  split
  · exact points_advance.bind fun _ => points_pure _
  · exact points_failExpected _

theorem points_segments (turns : Nat) : Points tokens (segments turns) := by
  induction turns with
  | zero => exact points_pure _
  | succ turns ih =>
      exact points_accept_bind (points_identifier.bind fun _ => ih.bind fun _ => points_pure _) (points_pure _)

theorem points_dottedPath : Points tokens dottedPath :=
  points_identifier.bind fun _ => points_remaining.bind fun _ =>
    (points_segments _).bind fun _ => points_pure _

/-- A fault at a token that has been taken. -/
theorem pointsAt_fail_behind {token : Token} {blame : Span → Diagnostic}
    (same : ∀ span, (blame span).span = span) (found : tokens[position]? = some token)
    (more : token.kind ≠ .endOfFile) :
    PointsAt tokens low position
      (advance >>= fun _ => previousSpan >>= fun span => (fail (blame span) : Reader α)) := by
  intro cursor marked
  rw [← marked.place.current found] at more
  obtain ⟨stop, onward, there⟩ := marked.step
  have behind := marked.place.step more
  have spans : SpansFrom tokens low stop cursor.step.previousSpan := by
    rw [behind.previousSpan found]
    exact ⟨position, position + 1, marked.reached, onward, Token.spans_token found⟩
  rw [← same cursor.step.previousSpan] at spans
  exact .failure onward there spans

/-! Lists of things, and bodies. -/

section Lists

variable {item part : Reader α}

theorem points_itemsAfterComma (items : Points tokens item) (turns : Nat) :
    Points tokens (itemsAfterComma item turns) := by
  induction turns with
  | zero => exact points_pure _
  | succ turns ih =>
      exact points_accept_bind (items.bind fun _ => ih.bind fun _ => points_pure _) (points_pure _)

theorem points_commaSeparated (items : Points tokens item) : Points tokens (commaSeparated item) :=
  items.bind fun _ => points_remaining.bind fun _ =>
    (points_itemsAfterComma items _).bind fun _ => points_pure _

theorem points_parenthesized (opening closing : String) (items : Points tokens item) :
    Points tokens (parenthesized opening closing item) := by
  refine (points_expect _ opening).bind fun _ => points_accept_bind (points_pure _) ?_
  exact (points_commaSeparated items).bind fun _ => (points_expect _ closing).bind fun _ => points_pure _

/-- Going on where a part was read, and where it was faulty. -/
theorem Points.attempt {following : Except Diagnostic α → Reader β} (inside : Points tokens part)
    (fine : ∀ value, Points tokens (following (.ok value)))
    (faulty : ∀ fault high middle, SpansFrom tokens high middle fault.span →
      PointsAt tokens high middle (following (.error fault))) :
    Points tokens (Reader.attempt part >>= following) := by
  intro low position cursor marked
  have known := inside low position cursor marked
  cases here : part cursor with
  | value result next =>
      rw [here] at known
      have tried : Reader.attempt part cursor = .value (.ok result) next := by rw [Reader.attempt, here]
      rw [bind_value tried]
      cases known with
      | value onward marked => exact (fine result _ _ next marked).sooner onward
  | failure fault next =>
      rw [here] at known
      have tried : Reader.attempt part cursor = .value (.error fault) next := by rw [Reader.attempt, here]
      rw [bind_value tried]
      cases known with
      | failure onward marked spans => exact (faulty fault _ _ spans next marked).sooner onward

/-- What is reported is not in front of what has been reported before, and from there on nothing else is
reported in front of it. -/
theorem pointsAt_report (ordered : Ordered tokens) {fault : Diagnostic} {following : Unit → Reader α}
    (spans : SpansFrom tokens low position fault.span) (later : Points tokens (following ())) :
    PointsAt tokens low position (report fault >>= following) := by
  intro cursor marked
  obtain ⟨first, stop, behind, reached, spans⟩ := spans
  refine later first position _ ⟨⟨marked.place.rest, marked.place.previous, marked.place.within⟩,
    marked.ended, reached, List.forall_mem_cons.mpr ⟨?_, fun earlier among => ?_⟩,
    List.pairwise_cons.mpr ⟨fun earlier among => ?_, marked.rising⟩⟩
  · exact ⟨first, stop, Nat.zero_le _, Nat.le_refl _, spans⟩
  · obtain ⟨first', stop', _, before, spans'⟩ := marked.faults earlier among
    exact ⟨first', stop', Nat.zero_le _, Nat.le_trans before behind, spans'⟩
  · obtain ⟨first', stop', _, before, spans'⟩ := marked.faults earlier among
    exact spans'.start_le spans ordered (Nat.le_trans before behind)

theorem points_recover (recovery : Recovery) : Points tokens (recover recovery) := by
  intro low position cursor marked
  obtain ⟨stop, onward, there⟩ :=
    Cursor.exists_at_skip recovery false 0 cursor.reported marked.place
  exact .value onward ⟨there, Recovery.ended_skip _ _ _ _ marked.ended, Nat.le_trans marked.reached onward,
    marked.faults, marked.rising⟩

theorem points_parts (ordered : Ordered tokens) (recovery : Recovery) (inside : Points tokens part)
    (turns : Nat) : Points tokens (parts recovery part turns) := by
  induction turns with
  | zero => exact points_pure _
  | succ turns ih =>
      refine points_currentKind.bind fun kind => ?_
      split
      · exact points_pure _
      · refine inside.attempt (fun _ => ih.bind fun _ => points_pure _) fun fault high middle spans => ?_
        exact pointsAt_report ordered spans ((points_recover recovery).bind fun _ => ih)

theorem points_braced (ordered : Ordered tokens) (recovery : Recovery) (opening closing : String)
    (inside : Points tokens part) : Points tokens (braced recovery opening closing part) :=
  (points_expect _ opening).bind fun _ => points_remaining.bind fun _ =>
    (points_parts ordered recovery inside _).bind fun _ =>
      (points_expect _ closing).bind fun _ => points_pure _

end Lists

end Reader

end Grammar

end DataClass
