import DataClass.Proofs.Grammar.Consuming
import DataClass.Proofs.Grammar.Walk.Basic
namespace DataClass.Grammar

/-! Walks and readers go the same way.

Where a reader has all the tokens up to the first end ahead, and whatever behind it, a walk over tokens
that are the same up to that end does what the reader does, and neither gets past the end. The tokens
behind it need not be the same for the two of them.
-/

/-- Tokens up to their first end, and what stands behind it for a walk and for a reader. -/
structure Course where
  front : List Token
  last : Token
  walked : List Token
  read : List Token
  more : ∀ token ∈ front, token.kind ≠ .endOfFile
  ended : last.kind = .endOfFile

namespace Course

/-- The tokens that are walked over. -/
def tokens (course : Course) : List Token := course.front ++ course.last :: course.walked

/-- How far a walk or a reader has got, at most up to the first end. -/
structure Spot (course : Course) where
  position : Nat
  reported : List Diagnostic
  position_le : position ≤ course.front.length

namespace Spot

variable {course : Course} (spot : course.Spot)

/-- Where a reader is at that spot. -/
def cursor : Cursor where
  previous := (course.front.take spot.position).getLast?.map Token.span
  rest := course.front.drop spot.position ++ course.last :: course.read
  reported := spot.reported

/-- A walk is at that spot, and has been and looked nowhere behind the first end. -/
structure Holds (place : Place) : Prop where
  position_eq : place.position = spot.position
  reported_eq : place.reported = spot.reported
  visited_le : ∀ position ∈ place.visited, position ≤ course.front.length
  looked_le : ∀ index ∈ place.looked, index ≤ course.front.length

/-- One token further. -/
def forth (inside : spot.position < course.front.length) : course.Spot :=
  ⟨spot.position + 1, spot.reported, inside⟩

/-- How many tokens are ahead, the first end among them. -/
def ahead : Nat := course.front.length + 1 - spot.position

theorem ahead_pos : 0 < spot.ahead := by
  have := spot.position_le
  unfold ahead
  omega

theorem ahead_forth (inside : spot.position < course.front.length) :
    spot.ahead = (spot.forth inside).ahead + 1 := by
  simp only [ahead, forth]
  omega

theorem ahead_le_remaining : spot.ahead ≤ spot.cursor.rest.length := by
  have := spot.position_le
  simp only [ahead, cursor, List.length_append, List.length_drop, List.length_cons]
  omega

variable {spot} in
theorem ahead_lt {next : course.Spot} (further : spot.position < next.position) :
    next.ahead < spot.ahead := by
  have := next.position_le
  unfold ahead
  omega

variable {spot} in
theorem ahead_le {next : course.Spot} (onward : spot.position ≤ next.position) :
    next.ahead ≤ spot.ahead := by
  unfold ahead
  omega

theorem rest_of_lt (inside : spot.position < course.front.length) :
    spot.cursor.rest = course.front[spot.position] ::
      (course.front.drop (spot.position + 1) ++ course.last :: course.read) := by
  rw [cursor, List.drop_eq_getElem_cons inside]
  rfl

theorem rest_of_eq (same : spot.position = course.front.length) :
    spot.cursor.rest = course.last :: course.read := by
  simp [cursor, same]

/-- The token at the position is the one the reader reads next. -/
theorem token_at_position : course.tokens[spot.position]? = some spot.cursor.current := by
  rcases Nat.lt_or_eq_of_le spot.position_le with inside | same
  · rw [tokens, List.getElem?_append_left inside, Cursor.current, spot.rest_of_lt inside,
      List.getElem?_eq_getElem inside]
    rfl
  · simp [tokens, Cursor.current, same, spot.rest_of_eq same]

variable {spot} in
theorem current_eq {other : course.Spot} (same : spot.position = other.position) :
    spot.cursor.current = other.cursor.current := by
  refine Option.some.inj ?_
  rw [← spot.token_at_position, ← other.token_at_position, same]

/-- There is more to be read exactly in front of the first end. -/
theorem current_kind_eq_end :
    spot.cursor.current.kind = .endOfFile ↔ spot.position = course.front.length := by
  rcases Nat.lt_or_eq_of_le spot.position_le with inside | same
  · have other := course.more _ (List.getElem_mem inside)
    simp [Cursor.current, spot.rest_of_lt inside, other, Nat.ne_of_lt inside]
  · simp [Cursor.current, spot.rest_of_eq same, course.ended, same]

theorem lt_of_more (more : spot.cursor.current.kind ≠ .endOfFile) :
    spot.position < course.front.length :=
  Nat.lt_of_le_of_ne spot.position_le fun same => more (spot.current_kind_eq_end.mpr same)

theorem cursor_forth (inside : spot.position < course.front.length) :
    (spot.forth inside).cursor = spot.cursor.step := by
  have known := course.more _ (List.getElem_mem inside)
  have previous : (course.front.take (spot.position + 1)).getLast? = some course.front[spot.position] := by
    simp [List.getLast?_take, inside]
  rw [Cursor.step, spot.rest_of_lt inside]
  simp only [if_neg known]
  rw [cursor]
  simp only [forth, previous, Option.map_some]
  rfl

end Spot

end Course

namespace Walk

variable {α β : Type} {course : Course} {spot middle next : course.Spot} {first : β} {result : α}

/-- From that spot the walk comes to the next one, and has looked for no token that is not there. -/
def Goes (walk : Walk α) (spot : course.Spot) (result : α) (next : course.Spot) : Prop :=
  ∀ place, spot.Holds place →
    ∃ after, walk course.tokens place = some (.ok (result, after)) ∧ next.Holds after

theorem goes_pure (result : α) : (pure result : Walk α).Goes spot result spot :=
  fun place holds => ⟨place, rfl, holds⟩

theorem bind_of_step {walk : Walk β} {following : β → Walk α} {tokens : List Token}
    {place between : Place} (goes : walk tokens place = some (.ok (first, between))) :
    (walk >>= following) tokens place = following first tokens between := by
  change Option.bind (walk tokens place)
    (ExceptT.bindCont fun step => following step.1 tokens step.2) = _
  rw [goes]
  rfl

theorem Goes.bind {walk : Walk β} {following : β → Walk α} (sooner : walk.Goes spot first middle)
    (later : (following first).Goes middle result next) : (walk >>= following).Goes spot result next := by
  intro place holds
  obtain ⟨between, goes, holds⟩ := sooner place holds
  obtain ⟨after, further, holds⟩ := later between holds
  exact ⟨after, (bind_of_step goes).trans further, holds⟩

theorem Goes.map {walk : Walk β} (goes : walk.Goes spot first next) (change : β → α) :
    (walk >>= fun found => pure (change found)).Goes spot (change first) next :=
  goes.bind (goes_pure _)

theorem goes_read {following : List Token → Walk α}
    (later : (following course.tokens).Goes spot result next) : (read >>= following).Goes spot result next :=
  later

theorem goes_position : position.Goes spot spot.position spot :=
  fun place holds => ⟨place, by rw [← holds.position_eq]; rfl, holds⟩

theorem goes_reported : reported.Goes spot spot.reported spot :=
  fun place holds => ⟨place, by rw [← holds.reported_eq]; rfl, holds⟩

theorem goes_tokenAt {index : Nat} {token : Token} (within : index ≤ course.front.length)
    (there : course.tokens[index]? = some token) : (tokenAt index).Goes spot token spot := by
  refine goes_read ?_
  rw [there]
  exact fun place holds => ⟨{ place with looked := index :: place.looked }, rfl,
    { holds with looked_le := List.forall_mem_cons.mpr ⟨within, holds.looked_le⟩ }⟩

theorem goes_current : current.Goes spot spot.cursor.current spot := by
  have within := spot.position_le
  have here : min spot.position (course.tokens.length - 1) = spot.position := by
    simp only [Course.tokens, List.length_append, List.length_cons]
    omega
  refine goes_position.bind (goes_read ?_)
  rw [here]
  exact goes_tokenAt within spot.token_at_position

theorem goes_currentKind : currentKind.Goes spot spot.cursor.current.kind spot :=
  goes_current.map Token.kind

theorem goes_isNext (kind : TokenKind) :
    (isNext kind).Goes spot (spot.cursor.current.kind == kind) spot := goes_currentKind.map _

theorem goes_lookBack (spot : course.Spot) : ∃ token, lookBack.Goes spot token spot ∧
    (spot.position ≠ 0 → spot.cursor.previous = some token.span) := by
  have within := spot.position_le
  by_cases untaken : spot.position = 0
  · have first : spot.position - 1 = spot.position := by omega
    refine ⟨spot.cursor.current, goes_position.bind ?_, absurd untaken⟩
    rw [first]
    exact goes_tokenAt within spot.token_at_position
  · have inside : spot.position - 1 < course.front.length := by omega
    have there : course.tokens[spot.position - 1]? = some course.front[spot.position - 1] := by
      rw [Course.tokens, List.getElem?_append_left inside, List.getElem?_eq_getElem inside]
    refine ⟨course.front[spot.position - 1],
      goes_position.bind (goes_tokenAt (Nat.le_of_lt inside) there), fun _ => ?_⟩
    simp [Course.Spot.cursor, List.getLast?_take, untaken, inside]

theorem goes_previousSpan : previousSpan.Goes spot spot.cursor.previousSpan spot := by
  refine goes_position.bind ?_
  by_cases untaken : spot.position = 0
  · have none : spot.cursor.previous = none := by simp [Course.Spot.cursor, untaken]
    rw [if_pos untaken, Cursor.previousSpan, none]
    exact goes_current.map Token.span
  · obtain ⟨token, goes, previous⟩ := goes_lookBack spot
    rw [if_neg untaken, Cursor.previousSpan, previous untaken]
    exact goes.map Token.span

theorem goes_spanFrom (start : Nat) :
    (spanFrom start).Goes spot ⟨start, max spot.cursor.previousSpan.stop start⟩ spot :=
  goes_previousSpan.map fun span : Span => (⟨start, max span.stop start⟩ : Span)

theorem goes_advance (more : spot.cursor.current.kind ≠ .endOfFile) :
    advance.Goes spot () (spot.forth (spot.lt_of_more more)) := by
  have steps : step.Goes spot () (spot.forth (spot.lt_of_more more)) := fun place holds =>
    ⟨_, rfl, congrArg (· + 1) holds.position_eq, holds.reported_eq,
      List.forall_mem_cons.mpr ⟨holds.position_eq ▸ spot.lt_of_more more, holds.visited_le⟩,
      holds.looked_le⟩
  obtain ⟨token, goes, _⟩ := goes_lookBack (spot.forth (spot.lt_of_more more))
  refine (goes_isNext _).bind ?_
  simp only [beq_iff_eq, if_neg more]
  exact steps.bind (goes.map _)

theorem goes_accept {kind : TokenKind} (here : spot.cursor.current.kind = kind)
    (more : spot.cursor.current.kind ≠ .endOfFile) :
    (accept kind).Goes spot true (spot.forth (spot.lt_of_more more)) := by
  refine (goes_isNext kind).bind ?_
  simp only [here, BEq.rfl, if_true]
  exact (goes_advance more).map _

theorem goes_accept_other {kind : TokenKind} (other : spot.cursor.current.kind ≠ kind) :
    (accept kind).Goes spot false spot := by
  refine (goes_isNext kind).bind ?_
  simp only [beq_iff_eq, if_neg other]
  exact goes_pure false

/-- With enough turns the walk comes from that spot to the next one, always in the same way. -/
def Ends (walk : Nat → Walk α) (spot : course.Spot) (result : α) (next : course.Spot) : Prop :=
  ∀ place, spot.Holds place → ∃ after enough,
    (∀ turns, enough ≤ turns → walk turns course.tokens place = some (.ok (result, after))) ∧
      next.Holds after

theorem Goes.ends {walk : Walk α} (goes : walk.Goes spot result next) :
    Ends (fun _ => walk) spot result next := by
  intro place holds
  obtain ⟨after, goes, holds⟩ := goes place holds
  exact ⟨after, 0, fun _ _ => goes, holds⟩

theorem Ends.bind {walk : Nat → Walk β} {following : Nat → β → Walk α}
    (sooner : Ends walk spot first middle) (later : Ends (following · first) middle result next) :
    Ends (fun turns => walk turns >>= following turns) spot result next := by
  intro place holds
  obtain ⟨between, enough, goes, holds⟩ := sooner place holds
  obtain ⟨after, more, further, holds⟩ := later between holds
  refine ⟨after, max enough more, fun turns within => ?_, holds⟩
  obtain ⟨within, withinLater⟩ := Nat.max_le.mp within
  exact (bind_of_step (goes turns within)).trans (further turns withinLater)

theorem Ends.turn {walk : Nat → Walk α} (ends : Ends (fun turns => walk (turns + 1)) spot result next) :
    Ends walk spot result next := by
  intro place holds
  obtain ⟨after, enough, goes, holds⟩ := ends place holds
  refine ⟨after, enough + 1, fun turns within => ?_, holds⟩
  cases turns with
  | zero => exact absurd within (Nat.not_succ_le_zero enough)
  | succ turns => exact goes turns (Nat.le_of_succ_le_succ within)

end Walk

namespace Outcome

variable {α : Type}

/-- What a reader does that ends with a value or with a fault. -/
def ofExcept : Except Diagnostic α → Cursor → Outcome α
  | .ok result, next => .value result next
  | .error fault, next => .failure fault next

end Outcome

namespace Trial

variable {α β : Type} {course : Course} {spot : course.Spot} {takes takes' more : Prop}

/-- With enough turns the walk comes from that spot to where the reader gets, with the same value or the
same fault. Where it `takes`, it gets to no value without going on. -/
def Mirrors (takes : Prop) (trial : Nat → Trial α) (reader : Reader α) (spot : course.Spot) : Prop :=
  ∃ (result : Except Diagnostic α) (next : course.Spot), Walk.Ends trial spot result next ∧
    reader spot.cursor = .ofExcept result next.cursor ∧ spot.position ≤ next.position ∧
    (takes → result.isOk → spot.position < next.position)

theorem mirrors_pure (result : α) : Mirrors False (fun _ => pure result) (pure result) spot :=
  ⟨.ok result, spot, (Walk.goes_pure _).ends, rfl, Nat.le_refl _, False.elim⟩

theorem mirrors_throw (fault : Diagnostic) :
    Mirrors takes (fun _ => (throw fault : Trial α)) (Reader.fail fault) spot :=
  ⟨.error fault, spot, (Walk.goes_pure _).ends, rfl, Nat.le_refl _, by simp [Except.isOk, Except.toBool]⟩

theorem Mirrors.turn {trial : Nat → Trial α} {reader : Reader α}
    (mirrors : Mirrors takes (fun turns => trial (turns + 1)) reader spot) :
    Mirrors takes trial reader spot := by
  obtain ⟨result, next, ends, reads⟩ := mirrors
  exact ⟨result, next, Walk.Ends.turn ends, reads⟩

theorem Mirrors.loosen {trial : Nat → Trial α} {reader : Reader α}
    (mirrors : Mirrors takes trial reader spot) : Mirrors False trial reader spot := by
  obtain ⟨result, next, ends, reads, onward, _⟩ := mirrors
  exact ⟨result, next, ends, reads, onward, False.elim⟩

section Bind

variable {first : Nat → Trial β} {reader : Reader β} {one : Nat → β → Trial α} {two : β → Reader α}

theorem Mirrors.andThen (start : Mirrors takes' first reader spot)
    (later : ∀ result (next : course.Spot), spot.position ≤ next.position →
      (takes' → spot.position < next.position) → Mirrors more (one · result) (two result) next)
    (must : takes → takes' ∨ more) :
    Mirrors takes (fun turns => first turns >>= one turns) (reader >>= two) spot := by
  obtain ⟨read, middle, ends, reads, onward, further⟩ := start
  cases read with
  | error fault =>
      refine ⟨.error fault, middle, ?_, Reader.bind_failure reads, onward, ?_⟩
      · exact Walk.Ends.bind ends (Walk.goes_pure (Except.error fault)).ends
      · simp [Except.isOk, Except.toBool]
  | ok first =>
      have further := fun taken => further taken rfl
      obtain ⟨result, next, endsOn, readsOn, onwardLater, furtherLater⟩ :=
        later first middle onward further
      refine ⟨result, next, ?_, ?_, Nat.le_trans onward onwardLater, fun taken got => ?_⟩
      · exact Walk.Ends.bind ends endsOn
      · rw [Reader.bind_value reads, readsOn]
      · rcases must taken with taken | taken
        · exact Nat.lt_of_lt_of_le (further taken) onwardLater
        · exact Nat.lt_of_le_of_lt onward (furtherLater taken got)

/-- Going on with a reader that need not take a token. -/
theorem Mirrors.bind (start : Mirrors takes' first reader spot)
    (later : ∀ result (next : course.Spot), spot.position ≤ next.position →
      (takes' → spot.position < next.position) → Mirrors False (one · result) (two result) next)
    (must : takes → takes') :
    Mirrors takes (fun turns => first turns >>= one turns) (reader >>= two) spot :=
  start.andThen later (.inl ∘ must)

/-- Going on with a reader that takes a token. -/
theorem Mirrors.before (start : Mirrors takes' first reader spot)
    (later : ∀ result (next : course.Spot), spot.position ≤ next.position →
      (takes' → spot.position < next.position) → Mirrors True (one · result) (two result) next) :
    Mirrors takes (fun turns => first turns >>= one turns) (reader >>= two) spot :=
  start.andThen later fun _ => .inr trivial

theorem Mirrors.map {change : β → α} (inside : Mirrors takes first reader spot) :
    Mirrors takes (fun turns => first turns >>= fun result => pure (change result))
      (reader >>= fun result => pure (change result)) spot :=
  inside.bind (fun _ _ _ _ => mirrors_pure _) id

end Bind

/-! Going on behind steps of the walk that need no turns. -/

section Steps

variable {walk : Walk β} {reader : Reader β} {found : β} {one : Nat → β → Trial α} {two : β → Reader α}

theorem mirrors_lift {middle : course.Spot} (goes : walk.Goes spot found middle)
    (reads : reader spot.cursor = .value found middle.cursor) (onward : spot.position ≤ middle.position)
    (later : Mirrors more (one · found) (two found) middle)
    (must : takes → spot.position < middle.position ∨ more) :
    Mirrors takes (fun turns => liftM walk >>= one turns) (reader >>= two) spot := by
  obtain ⟨result, next, ends, readsOn, onwardLater, furtherLater⟩ := later
  have lifted : Walk.Goes (liftM walk : Trial β) spot (.ok found) middle := goes.map Except.ok
  refine ⟨result, next, Walk.Ends.bind lifted.ends ends,
    (Reader.bind_value reads).trans readsOn, Nat.le_trans onward onwardLater, fun taken got => ?_⟩
  rcases must taken with further | taken
  · exact Nat.lt_of_lt_of_le further onwardLater
  · exact Nat.lt_of_le_of_lt onward (furtherLater taken got)

/-- Going on as what is seen at the spot. -/
theorem mirrors_seen (goes : walk.Goes spot found spot)
    (reads : reader spot.cursor = .value found spot.cursor)
    (later : Mirrors takes (one · found) (two found) spot) :
    Mirrors takes (fun turns => liftM walk >>= one turns) (reader >>= two) spot :=
  mirrors_lift goes reads (Nat.le_refl _) later .inr

/-- Going on behind the next token. -/
theorem mirrors_forth (inside : spot.position < course.front.length)
    (goes : walk.Goes spot found (spot.forth inside))
    (reads : reader spot.cursor = .value found spot.cursor.step)
    (later : ∀ next : course.Spot, spot.position < next.position →
      Mirrors False (one · found) (two found) next) :
    Mirrors takes (fun turns => liftM walk >>= one turns) (reader >>= two) spot :=
  mirrors_lift goes (spot.cursor_forth inside ▸ reads) (Nat.le_succ _)
    (later (spot.forth inside) (Nat.lt_succ_self _)) fun _ => .inl (Nat.lt_succ_self _)

end Steps

theorem mirrors_current {one : Nat → Token → Trial α} {two : Token → Reader α}
    (later : Mirrors takes (one · spot.cursor.current) (two spot.cursor.current) spot) :
    Mirrors takes (fun turns => liftM Walk.current >>= one turns) (Reader.current >>= two) spot :=
  mirrors_seen Walk.goes_current rfl later

theorem mirrors_currentKind {one : Nat → TokenKind → Trial α} {two : TokenKind → Reader α}
    (later : Mirrors takes (one · spot.cursor.current.kind) (two spot.cursor.current.kind) spot) :
    Mirrors takes (fun turns => liftM Walk.currentKind >>= one turns) (Reader.currentKind >>= two) spot :=
  mirrors_seen Walk.goes_currentKind rfl later

theorem mirrors_isNext {kind : TokenKind} {one : Nat → Bool → Trial α} {two : Bool → Reader α}
    (later : Mirrors takes (one · (spot.cursor.current.kind == kind))
      (two (spot.cursor.current.kind == kind)) spot) :
    Mirrors takes (fun turns => liftM (Walk.isNext kind) >>= one turns) (Reader.isNext kind >>= two) spot :=
  mirrors_seen (Walk.goes_isNext kind) rfl later

theorem mirrors_previousSpan {one : Nat → Span → Trial α} {two : Span → Reader α}
    (later : ∀ span, Mirrors takes (one · span) (two span) spot) :
    Mirrors takes (fun turns => liftM Walk.previousSpan >>= one turns) (Reader.previousSpan >>= two) spot :=
  mirrors_seen Walk.goes_previousSpan rfl (later _)

theorem mirrors_spanFrom (start : Nat) {one : Nat → Span → Trial α} {two : Span → Reader α}
    (later : ∀ span, Mirrors takes (one · span) (two span) spot) :
    Mirrors takes (fun turns => liftM (Walk.spanFrom start) >>= one turns)
      (Reader.spanFrom start >>= two) spot :=
  mirrors_seen (Walk.goes_spanFrom start) rfl (later _)

theorem Mirrors.placed {first : Nat → Trial β} {reader : Reader β} {start : Nat} {change : Span → β → α}
    (inside : Mirrors takes first reader spot) :
    Mirrors takes (fun turns => first turns >>= fun result =>
        liftM (Walk.spanFrom start) >>= fun span => pure (change span result))
      (reader >>= fun result => Reader.spanFrom start >>= fun span => pure (change span result)) spot :=
  inside.bind (fun _ _ _ _ => mirrors_spanFrom _ fun _ => mirrors_pure _) id

theorem mirrors_advance {kind : TokenKind} {one : Nat → Trial α} {two : Reader α}
    (here : spot.cursor.current.kind = kind) (more : kind ≠ .endOfFile)
    (later : ∀ next : course.Spot, spot.position < next.position → Mirrors False one two next) :
    Mirrors takes (fun turns => liftM Walk.advance >>= fun _ => one turns)
      (Reader.advance >>= fun _ => two) spot :=
  mirrors_forth _ (Walk.goes_advance (here ▸ more)) rfl later

/-- Going on as the next token is of a kind or not. -/
theorem mirrors_accept_bind {kind : TokenKind} {one : Nat → Bool → Trial α} {two : Bool → Reader α}
    (more : kind ≠ .endOfFile)
    (yes : ∀ next : course.Spot, spot.position < next.position →
      Mirrors False (one · true) (two true) next)
    (no : Mirrors takes (one · false) (two false) spot) :
    Mirrors takes (fun turns => liftM (Walk.accept kind) >>= one turns) (Reader.accept kind >>= two) spot := by
  by_cases here : spot.cursor.current.kind = kind
  · exact mirrors_forth _ (Walk.goes_accept here (here ▸ more)) (by simp [Reader.accept, here]) yes
  · exact mirrors_seen (Walk.goes_accept_other here) (by simp [Reader.accept, here]) no

theorem mirrors_accept {kind : TokenKind} {found other : Nat → Trial α} {found' other' : Reader α}
    (more : kind ≠ .endOfFile)
    (yes : ∀ next : course.Spot, spot.position < next.position → Mirrors False found found' next)
    (no : Mirrors takes other other' spot) :
    Mirrors takes (fun turns => liftM (Walk.accept kind) >>= fun here =>
        if here = true then found turns else other turns)
      (Reader.accept kind >>= fun here => if here = true then found' else other') spot :=
  mirrors_accept_bind more yes no

theorem mirrors_failExpected (expected : String) :
    Mirrors takes (fun _ => (failExpected expected : Trial α)) (Reader.failExpected expected) spot := by
  have looks : (Reader.failExpected expected : Reader α) = (do
      let kind ← Reader.currentKind
      let token ← Reader.current
      Reader.fail (.syntaxFault ("Expected " ++ expected ++ ", found " ++ kind.describe) token.span)) :=
    rfl
  rw [looks]
  exact mirrors_currentKind (mirrors_current (mirrors_throw _))

theorem mirrors_expect {kind : TokenKind} (expected : String) (more : kind ≠ .endOfFile) :
    Mirrors True (fun _ => expect kind expected) (Reader.expect kind expected) spot :=
  mirrors_accept more (fun _ _ => mirrors_pure ()) (mirrors_failExpected expected)

theorem mirrors_identifier : Mirrors True (fun _ => identifier) Reader.identifier spot := by
  refine mirrors_currentKind ?_
  cases here : spot.cursor.current.kind with
  | identifier name => exact mirrors_advance here (by simp) fun _ _ => mirrors_pure name
  | _ => exact mirrors_failExpected _

/-! Loops and layers. -/

/-- Readers are given as many turns as there are tokens ahead, or more. -/
theorem mirrors_remaining {trial : Nat → Trial α} {two : Nat → Reader α}
    (later : ∀ turns, spot.ahead ≤ turns → Mirrors takes trial (two turns) spot) :
    Mirrors takes trial (Reader.remaining >>= two) spot :=
  later _ spot.ahead_le_remaining

/-- A loop of the walk mirrors one of the reader that is given enough turns, if a turn does so wherever the
turns behind it do. -/
theorem mirrors_loop {bound turns : Nat} (loop : Nat → β → Trial α) (loop' : Nat → β → Reader α)
    (turn : ∀ turns state (spot : course.Spot), spot.ahead ≤ bound →
      (∀ state (next : course.Spot), spot.position < next.position →
        Mirrors takes (loop · state) (loop' turns state) next) →
      Mirrors takes (fun turns => loop (turns + 1) state) (loop' (turns + 1) state) spot)
    (enough : spot.ahead ≤ turns) (within : spot.ahead ≤ bound) (state : β) :
    Mirrors takes (loop · state) (loop' turns state) spot := by
  induction turns generalizing spot state with
  | zero => exact absurd spot.ahead_pos (Nat.not_lt_of_le enough)
  | succ turns ih =>
      refine Mirrors.turn (turn turns state spot within fun state next further => ?_)
      have shorter := Course.Spot.ahead_lt further
      exact ih (Nat.le_of_lt_succ (Nat.lt_of_lt_of_le shorter enough))
        (Nat.le_of_lt (Nat.lt_of_lt_of_le shorter within)) state

/-- The walk mirrors the reader wherever at most so many tokens are ahead. -/
def MirrorsUpTo (course : Course) (takes : Prop) (bound : Nat) (trial : Nat → Trial α)
    (reader : Reader α) : Prop :=
  ∀ spot : course.Spot, spot.ahead ≤ bound → Mirrors takes trial reader spot

/-- Readers that are built in layers mirror a walk if a layer does so wherever, with fewer tokens ahead, the
layer inside of it does. -/
theorem mirrors_layers {level : Nat → Reader α} {layer : Reader α → Reader α} {trial : Nat → Trial α}
    (above : ∀ depth, level (depth + 1) = layer (level depth))
    (layers : ∀ (inner : Reader α) (bound : Nat), MirrorsUpTo course takes bound trial inner →
      MirrorsUpTo course takes (bound + 1) trial (layer inner)) (depth : Nat) :
    MirrorsUpTo course takes depth trial (level depth) := by
  induction depth with
  | zero => exact fun spot none => absurd spot.ahead_pos (Nat.not_lt_of_le none)
  | succ depth ih =>
      rw [above]
      exact layers (level depth) depth ih

end Trial

end DataClass.Grammar
