import DataClass.Proofs.Grammar.Consuming
namespace DataClass.Grammar

namespace Outcome

variable {α : Type}

/-- Where a reader stopped. -/
def next : Outcome α → Cursor
  | .value _ next | .failure _ next => next

end Outcome

namespace Cursor

/-- Reading from the first cursor may stop at the second one. -/
structure Reachable (earlier later : Cursor) : Prop where
  behind : later.rest <:+ earlier.rest
  placed : earlier.previous.isSome → later.previous.isSome
  reported : earlier.reported <:+ later.reported

/-- Reading from the first cursor may stop at the second one, and faults have been reported only
where a body in braces has been entered. -/
structure Onward (earlier later : Cursor) : Prop extends Reachable earlier later where
  calm : ∀ taken, earlier.rest = taken ++ later.rest →
    (∀ token ∈ taken, token.kind ≠ .punctuation .leftBrace) → later.reported = earlier.reported

variable {first second third : Cursor}

theorem Reachable.refl (cursor : Cursor) : cursor.Reachable cursor :=
  ⟨List.suffix_rfl, id, List.suffix_rfl⟩

theorem Reachable.trans (sooner : first.Reachable second) (later : second.Reachable third) :
    first.Reachable third :=
  ⟨later.behind.trans sooner.behind, later.placed ∘ sooner.placed,
    sooner.reported.trans later.reported⟩

theorem Reachable.length_le (reach : first.Reachable second) :
    second.rest.length ≤ first.rest.length := reach.behind.length_le

theorem Reachable.reported_eq (sooner : first.Reachable second) (later : second.Reachable third)
    (quiet : third.reported = first.reported) : second.reported = first.reported :=
  (sooner.reported.eq_of_length_le (quiet ▸ later.reported.length_le)).symm

theorem onward_of_reported (reach : first.Reachable second)
    (quiet : second.reported = first.reported) : first.Onward second :=
  ⟨reach, fun _ _ _ => quiet⟩

theorem Onward.refl (cursor : Cursor) : cursor.Onward cursor := onward_of_reported (.refl _) rfl

theorem Onward.trans (sooner : first.Onward second) (later : second.Onward third) :
    first.Onward third := by
  refine ⟨sooner.toReachable.trans later.toReachable, fun taken front plain => ?_⟩
  obtain ⟨before, start⟩ := sooner.behind
  obtain ⟨after, further⟩ := later.behind
  obtain rfl : before ++ after = taken := by
    rw [← start, ← further, ← List.append_assoc] at front
    exact List.append_cancel_right front
  have plain := List.forall_mem_append.mp plain
  exact (later.calm after further.symm plain.2).trans (sooner.calm before start.symm plain.1)

theorem onward_step (cursor : Cursor) : cursor.Onward cursor.step := by
  unfold step
  split
  · exact .refl _
  · next token rest ahead =>
      split
      · exact .refl _
      · refine onward_of_reported ⟨?_, fun _ => rfl, List.suffix_rfl⟩ rfl
        rw [ahead]
        exact List.suffix_cons ..

theorem length_step {cursor : Cursor} (more : cursor.current.kind ≠ .endOfFile) :
    cursor.step.rest.length < cursor.rest.length := by
  have taken := congrArg List.length (kinds_eq_step rfl more)
  rw [length_kinds, List.length_cons, length_kinds] at taken
  omega

/-- Two numbers of turns that are enough for a loop: the first for the tokens ahead, the second for
those tokens when they stand in front of `new` instead of `old`. -/
structure Enough (cursor : Cursor) (old new : List Token) (turns other : Nat) : Prop where
  here : cursor.rest.length ≤ turns
  there : cursor.rest.length + new.length ≤ other + old.length

theorem Enough.pos {old new front : List Token} {cursor : Cursor} {turns other : Nat}
    (enough : cursor.Enough old new turns other) (ahead : cursor.rest = front ++ old)
    (some : front ≠ []) : 0 < turns ∧ 0 < other := by
  have := List.length_pos_iff.mpr some
  have here := enough.here
  have there := enough.there
  rw [ahead, List.length_append] at here there
  omega

theorem enough_remaining {old new front : List Token} {cursor : Cursor}
    (ahead : cursor.rest = front ++ old) :
    cursor.Enough old new cursor.rest.length (front ++ new).length := by
  refine ⟨Nat.le_refl _, ?_⟩
  rw [ahead, List.length_append, List.length_append]
  omega

theorem Enough.shorter {old new : List Token} {earlier later : Cursor} {turns other : Nat}
    (enough : earlier.Enough old new (turns + 1) (other + 1))
    (shorter : later.rest.length < earlier.rest.length) : later.Enough old new turns other :=
  ⟨by have := enough.here; omega, by have := enough.there; omega⟩

end Cursor

namespace Reader

/-! Reading the same tokens in front of other ones.

A reader sees all tokens ahead, but where it stops before the last of some tokens, what it did
cannot depend on what stands behind them. This is what it means for one reader to track another;
readers that do not differ track themselves, and so do loops that take different numbers of turns,
if both are enough. -/

variable {α β γ : Type}

/-- What the first reader does at a cursor in front of the tokens `old`, without reporting a fault,
the second one does in front of `new`, if the first one stops before `old`. Where it is `closed` a
value may also have been read just up to `old`. Where it `takes`, no value is read without a token. -/
structure Tracks (old new : List Token) (takes closed : Prop) (one two : Reader α)
    (cursor : Cursor) : Prop where
  onward : cursor.Onward (one cursor).next
  shorter : takes → ∀ result next, one cursor = .value result next →
    next.rest.length < cursor.rest.length
  value : cursor.previous.isSome → ∀ front left result last reported,
    cursor.rest = front ++ old →
    one cursor = .value result ⟨last, left ++ old, cursor.reported⟩ → (left = [] → closed) →
    two ⟨cursor.previous, front ++ new, reported⟩ = .value result ⟨last, left ++ new, reported⟩
  failure : cursor.previous.isSome → ∀ front left fault last reported,
    cursor.rest = front ++ old →
    one cursor = .failure fault ⟨last, left ++ old, cursor.reported⟩ → left ≠ [] →
    two ⟨cursor.previous, front ++ new, reported⟩ = .failure fault ⟨last, left ++ new, reported⟩

variable {old new : List Token} {takes takes' closed : Prop} {one two : Reader α} {cursor : Cursor}

theorem Tracks.onward_value {result : α} {next : Cursor}
    (tracks : Tracks old new takes closed one two cursor) (read : one cursor = .value result next) :
    cursor.Onward next := by
  have onward := tracks.onward
  rwa [read] at onward

theorem Tracks.onward_failure {fault : Diagnostic} {next : Cursor}
    (tracks : Tracks old new takes closed one two cursor) (read : one cursor = .failure fault next) :
    cursor.Onward next := by
  have onward := tracks.onward
  rwa [read] at onward

theorem exists_between {middle last : Cursor} {left : List Token} (sooner : cursor.Reachable middle)
    (later : middle.Reachable last) (ahead : last.rest = left ++ old)
    (quiet : last.reported = cursor.reported) :
    ∃ place more, middle = ⟨place, (more ++ left) ++ old, cursor.reported⟩ := by
  obtain ⟨more, behind⟩ := later.behind
  refine ⟨middle.previous, more, ?_⟩
  rw [ahead, ← List.append_assoc] at behind
  rw [behind, ← sooner.reported_eq later quiet]

theorem Tracks.loosen (tracks : Tracks old new takes closed one two cursor) :
    Tracks old new False closed one two cursor :=
  ⟨tracks.onward, False.elim, tracks.value, tracks.failure⟩

theorem Tracks.unseal (tracks : Tracks old new takes closed one two cursor) :
    Tracks old new takes False one two cursor :=
  ⟨tracks.onward, tracks.shorter,
    fun placed front left result last reported ahead read some =>
      tracks.value placed front left result last reported ahead read (False.elim ∘ some),
    tracks.failure⟩

theorem Tracks.andThen {sealed more : Prop} {first second : Reader β} {one two : β → Reader α}
    (start : Tracks old new takes' sealed first second cursor)
    (later : ∀ result next, first cursor = .value result next → cursor.Onward next →
      (takes' → next.rest.length < cursor.rest.length) →
      Tracks old new more closed (one result) (two result) next)
    (must : takes → takes' ∨ more) (ends : closed → sealed ∨ more) :
    Tracks old new takes closed (first >>= one) (second >>= two) cursor := by
  cases here : first cursor with
  | failure fault middle =>
      have fails : (first >>= one) cursor = .failure fault middle := bind_failure here
      refine ⟨fails ▸ start.onward_failure here, by simp [fails], by simp [fails], ?_⟩
      intro placed front left found last reported ahead read some
      cases fails ▸ read
      exact bind_failure (start.failure placed front left fault last reported ahead here some)
  | value result middle =>
      have goes : (first >>= one) cursor = one result middle := bind_value here
      have sooner := start.onward_value here
      have shorter := fun taken => start.shorter taken result middle here
      have tracks := later result middle here sooner shorter
      refine ⟨?_, ?_, ?_, ?_⟩
      · rw [goes]
        exact sooner.trans tracks.onward
      · intro taken final next read
        rw [goes] at read
        rcases must taken with taken | taken
        · exact Nat.lt_of_le_of_lt (tracks.onward_value read).length_le (shorter taken)
        · exact Nat.lt_of_lt_of_le (tracks.shorter taken final next read) sooner.length_le
      · intro placed front left final last reported ahead read atEnd
        rw [goes] at read
        obtain ⟨place, between, rfl⟩ :=
          exists_between sooner.toReachable (tracks.onward_value read).toReachable rfl rfl
        -- where the first reader stops at `old`, the second one has no token to take
        have reached : between ++ left = [] → sealed := fun none => by
          obtain ⟨rfl, rfl⟩ := List.append_eq_nil_iff.mp none
          refine (ends (atEnd rfl)).resolve_right fun taken => ?_
          exact absurd (tracks.shorter taken _ _ read) (Nat.lt_irrefl _)
        rw [bind_value (start.value placed _ _ _ _ reported ahead here reached)]
        exact tracks.value (sooner.placed placed) _ _ _ _ _ rfl read atEnd
      · intro placed front left fault last reported ahead read some
        rw [goes] at read
        obtain ⟨place, between, rfl⟩ :=
          exists_between sooner.toReachable (tracks.onward_failure read).toReachable rfl rfl
        rw [bind_value (start.value placed _ _ _ _ reported ahead here (by simp [some]))]
        exact tracks.failure (sooner.placed placed) _ _ _ _ _ rfl read some

/-- Going on with a reader that may have looked ahead, as long as what follows takes a token. -/
theorem Tracks.before {first second : Reader β} {one two : β → Reader α}
    (start : Tracks old new takes' False first second cursor)
    (later : ∀ result next, cursor.Onward next → (takes' → next.rest.length < cursor.rest.length) →
      Tracks old new True closed (one result) (two result) next) :
    Tracks old new takes closed (first >>= one) (second >>= two) cursor :=
  start.andThen (fun result next _ => later result next) (fun _ => .inr trivial)
    fun _ => .inr trivial

/-- Going on with a reader that need not take a token. -/
theorem Tracks.bind {first second : Reader β} {one two : β → Reader α}
    (start : Tracks old new takes' closed first second cursor)
    (later : ∀ result next, cursor.Onward next → (takes' → next.rest.length < cursor.rest.length) →
      Tracks old new False closed (one result) (two result) next)
    (must : takes → takes') :
    Tracks old new takes closed (first >>= one) (second >>= two) cursor :=
  start.andThen (fun result next _ => later result next) (.inl ∘ must) .inl

theorem eq_of_stay {front left : List Token} {last : Option Span} {reported : List Diagnostic}
    (ahead : cursor.rest = front ++ old) (stay : cursor = ⟨last, left ++ old, reported⟩) :
    last = cursor.previous ∧ left = front := by
  subst stay
  exact ⟨rfl, List.append_cancel_right ahead⟩

/-- A reader that stays where it is, with a value that does not depend on what is ahead. -/
theorem tracks_pure (result : α) :
    Tracks old new False closed (pure result) (pure result) cursor := by
  refine ⟨.refl _, False.elim, ?_, by rintro _ _ _ _ _ _ _ ⟨⟩⟩
  intro _ front left final last reported ahead read _
  obtain ⟨rfl, stay⟩ := Outcome.value.inj read
  obtain ⟨rfl, rfl⟩ := eq_of_stay ahead stay
  rfl

theorem tracks_fail (fault : Diagnostic) :
    Tracks old new takes closed (fail fault) (fail fault : Reader α) cursor := by
  refine ⟨.refl _, by rintro _ _ _ ⟨⟩, by rintro _ _ _ _ _ _ _ ⟨⟩, ?_⟩
  intro _ front left found last reported ahead read _
  obtain ⟨rfl, stay⟩ := Outcome.failure.inj read
  obtain ⟨rfl, rfl⟩ := eq_of_stay ahead stay
  rfl

theorem current_front {front : List Token} (new : List Token) (reported : List Diagnostic)
    (ahead : cursor.rest = front ++ old) (some : front ≠ []) :
    Cursor.current ⟨cursor.previous, front ++ new, reported⟩ = cursor.current := by
  obtain ⟨token, front, rfl⟩ := List.exists_cons_of_ne_nil some
  rw [Cursor.current, Cursor.current, ahead]
  rfl

theorem tracks_failExpected (expected : String) :
    Tracks old new takes closed (failExpected expected) (failExpected expected : Reader α) cursor := by
  refine ⟨.refl _, by rintro _ _ _ ⟨⟩, by rintro _ _ _ _ _ _ _ ⟨⟩, ?_⟩
  intro _ front left found last reported ahead read some
  obtain ⟨rfl, stay⟩ := Outcome.failure.inj read
  obtain ⟨rfl, rfl⟩ := eq_of_stay ahead stay
  rw [failExpected, current_front new reported ahead some]

theorem ne_nil_of_reachable {front left : List Token} {next : Cursor} (reach : cursor.Reachable next)
    (ahead : cursor.rest = front ++ old) (stop : next.rest = left ++ old) (some : left ≠ []) :
    front ≠ [] := by
  rintro rfl
  have behind := reach.length_le
  rw [ahead, stop, List.length_append, List.length_append, List.length_nil] at behind
  exact some (List.length_eq_zero_iff.mp (by omega))

theorem tracks_look (look : Token → β) {one two : β → Reader α}
    (later : Tracks old new takes closed (one (look cursor.current)) (two (look cursor.current)) cursor)
    (must : closed → takes) :
    Tracks old new takes closed ((fun cursor => .value (look cursor.current) cursor : Reader β) >>= one)
      ((fun cursor => .value (look cursor.current) cursor : Reader β) >>= two) cursor := by
  refine ⟨later.onward, later.shorter, ?_, ?_⟩
  · intro placed front left result last reported ahead read atEnd
    have some : front ≠ [] := by
      by_cases none : left = []
      · rintro rfl
        have shorter := later.shorter (must (atEnd none)) _ _ read
        rw [ahead, none] at shorter
        exact Nat.lt_irrefl _ shorter
      · exact ne_nil_of_reachable (later.onward_value read).toReachable ahead rfl none
    have done := later.value placed front left result last reported ahead read atEnd
    rw [← current_front new reported ahead some] at done
    exact done
  · intro placed front left fault last reported ahead read some
    have reach := (later.onward_failure read).toReachable
    have done := later.failure placed front left fault last reported ahead read some
    rw [← current_front new reported ahead
      (ne_nil_of_reachable reach ahead rfl some)] at done
    exact done

theorem tracks_current {one two : Token → Reader α}
    (later : Tracks old new takes closed (one cursor.current) (two cursor.current) cursor)
    (must : closed → takes) :
    Tracks old new takes closed (current >>= one) (current >>= two) cursor :=
  tracks_look id later must

theorem tracks_currentKind {one two : TokenKind → Reader α}
    (later : Tracks old new takes closed (one cursor.current.kind) (two cursor.current.kind) cursor)
    (must : closed → takes) :
    Tracks old new takes closed (currentKind >>= one) (currentKind >>= two) cursor :=
  tracks_look Token.kind later must

theorem tracks_isNext {kind : TokenKind} {one two : Bool → Reader α}
    (later : Tracks old new takes closed (one (cursor.current.kind == kind))
      (two (cursor.current.kind == kind)) cursor)
    (must : closed → takes) :
    Tracks old new takes closed (isNext kind >>= one) (isNext kind >>= two) cursor :=
  tracks_look (·.kind == kind) later must

/-- Where a token has been read the place of the last one does not depend on those ahead. -/
theorem tracks_previousSpan {one two : Span → Reader α}
    (later : ∀ span, Tracks old new takes closed (one span) (two span) cursor) :
    Tracks old new takes closed (previousSpan >>= one) (previousSpan >>= two) cursor := by
  have known := later cursor.previousSpan
  have same : ∀ front reported, cursor.previous.isSome →
      Cursor.previousSpan ⟨cursor.previous, front ++ new, reported⟩ = cursor.previousSpan := by
    intro front reported placed
    obtain ⟨span, placed⟩ := Option.isSome_iff_exists.mp placed
    rw [Cursor.previousSpan, Cursor.previousSpan, placed]
    rfl
  refine ⟨known.onward, known.shorter, ?_, ?_⟩
  · intro placed front left result last reported ahead read atEnd
    have done := known.value placed front left result last reported ahead read atEnd
    rw [← same front reported placed] at done
    exact done
  · intro placed front left fault last reported ahead read some
    have done := known.failure placed front left fault last reported ahead read some
    rw [← same front reported placed] at done
    exact done

theorem tracks_spanFrom (start : Nat) {one two : Span → Reader α}
    (later : ∀ span, Tracks old new takes closed (one span) (two span) cursor) :
    Tracks old new takes closed (spanFrom start >>= one) (spanFrom start >>= two) cursor :=
  tracks_previousSpan fun span => later ⟨start, max span.stop start⟩

theorem Tracks.map {first second : Reader β} {change : β → α}
    (inside : Tracks old new takes closed first second cursor) :
    Tracks old new takes closed (first >>= fun result => pure (change result))
      (second >>= fun result => pure (change result)) cursor :=
  inside.bind (fun _ _ _ _ => tracks_pure _) id

theorem Tracks.placed {first second : Reader β} {start : Nat} {change : Span → β → α}
    (inside : Tracks old new takes closed first second cursor) :
    Tracks old new takes closed
      (first >>= fun result => spanFrom start >>= fun span => pure (change span result))
      (second >>= fun result => spanFrom start >>= fun span => pure (change span result)) cursor :=
  inside.bind (fun _ _ _ _ => tracks_spanFrom _ fun _ => tracks_pure _) id

/-- Going on with numbers of turns that are enough. -/
theorem tracks_remaining {one two : Nat → Reader α}
    (later : ∀ other, cursor.Enough old new cursor.rest.length other →
      Tracks old new takes closed (one cursor.rest.length) (two other) cursor) :
    Tracks old new takes closed (remaining >>= one) (remaining >>= two) cursor := by
  have any := later (cursor.rest.length + new.length) ⟨Nat.le_refl _, Nat.le_add_right ..⟩
  exact ⟨any.onward, any.shorter, fun placed front left result last reported ahead =>
    (later _ (Cursor.enough_remaining ahead)).value placed front left result last reported ahead,
    fun placed front left fault last reported ahead =>
    (later _ (Cursor.enough_remaining ahead)).failure placed front left fault last reported ahead⟩

theorem step_front {front left : List Token} {last : Option Span} (new : List Token)
    (reported : List Diagnostic)
    (more : cursor.current.kind ≠ .endOfFile) (ahead : cursor.rest = front ++ old)
    (stop : cursor.step = ⟨last, left ++ old, cursor.reported⟩) :
    front ≠ [] ∧ Cursor.step ⟨cursor.previous, front ++ new, reported⟩ = ⟨last, left ++ new, reported⟩ := by
  obtain ⟨previous, tokens, faults⟩ := cursor
  cases tokens with
  | nil => exact absurd rfl more
  | cons token rest =>
      have known : token.kind ≠ .endOfFile := more
      simp only [Cursor.step, if_neg known] at stop
      obtain ⟨rfl, rfl, _⟩ := Cursor.mk.inj stop
      obtain rfl := List.append_cancel_right (show token :: left ++ old = front ++ old from ahead)
      simp [Cursor.step, known]

theorem tracks_advance {kind : TokenKind} (here : cursor.current.kind = kind)
    (more : kind ≠ .endOfFile) : Tracks old new True closed advance advance cursor := by
  subst here
  refine ⟨cursor.onward_step, ?_, ?_, by rintro _ _ _ _ _ _ _ ⟨⟩⟩
  · rintro _ _ _ ⟨⟩
    exact Cursor.length_step more
  · intro _ front left _ last reported ahead read _
    have stop := (Outcome.value.inj read).2
    rw [advance, (step_front new reported more ahead stop).2]

theorem tracks_accepted {kind : TokenKind} (here : cursor.current.kind = kind)
    (more : kind ≠ .endOfFile) : Tracks old new True closed (accept kind) (accept kind) cursor := by
  subst here
  have read : accept cursor.current.kind cursor = .value true cursor.step := by simp [accept]
  refine ⟨?_, ?_, ?_, ?_⟩
  · rw [read]
    exact cursor.onward_step
  · intro _ result next same
    cases read ▸ same
    exact Cursor.length_step more
  · intro _ front left _ last reported ahead same _
    obtain ⟨rfl, stop⟩ := Outcome.value.inj (read ▸ same)
    obtain ⟨some, steps⟩ := step_front new reported more ahead stop
    simp [accept, current_front new reported ahead some, steps]
  · intro _ _ _ _ _ _ _ same
    cases read ▸ same

theorem tracks_declined {kind : TokenKind} (here : cursor.current.kind ≠ kind)
    (more : kind ≠ .endOfFile) :
    Tracks old new False (new.head?.map Token.kind ≠ some kind) (accept kind) (accept kind) cursor := by
  have read : accept kind cursor = .value false cursor := by simp [accept, here]
  refine ⟨by rw [read]; exact .refl _, False.elim, ?_, by simp [read]⟩
  intro _ front left _ last reported ahead same atEnd
  obtain ⟨rfl, stay⟩ := Outcome.value.inj (read ▸ same)
  obtain ⟨rfl, rfl⟩ := eq_of_stay ahead stay
  have other : (Cursor.current ⟨cursor.previous, left ++ new, reported⟩).kind ≠ kind := by
    by_cases none : left = []
    · subst none
      cases new with
      | nil => exact more.symm
      | cons token rest => exact fun same => atEnd rfl (congrArg some same)
    · rwa [current_front new reported ahead none]
  simp [accept, other]

theorem tracks_acceptance {kind : TokenKind} (more : kind ≠ .endOfFile) :
    Tracks old new False False (accept kind) (accept kind) cursor := by
  by_cases here : cursor.current.kind = kind
  · exact (tracks_accepted here more).loosen
  · exact (tracks_declined here more).unseal

/-- Going on as the next token is of a kind or not. A token that has been declined may be the one
behind what has been read, if that is not of the kind in front of `new` either. -/
theorem tracks_accept_or {kind : TokenKind} {found found' other other' : Reader α}
    (more : kind ≠ .endOfFile)
    (yes : ∀ next, cursor.Onward next → next.rest.length < cursor.rest.length →
      Tracks old new False closed found found' next)
    (no : Tracks old new takes closed other other' cursor)
    (must : closed → new.head?.map Token.kind ≠ some kind ∨ takes) :
    Tracks old new takes closed (accept kind >>= fun here => if here = true then found else other)
      (accept kind >>= fun here => if here = true then found' else other') cursor := by
  by_cases here : cursor.current.kind = kind
  · refine (tracks_accepted here more).andThen (fun result next read onward shorter => ?_)
      (fun _ => .inl trivial) (Or.inl : closed → closed ∨ False)
    obtain rfl : result = true := by
      rw [accept, if_pos (by simp [here])] at read
      exact (Outcome.value.inj read).1.symm
    exact yes next onward (shorter trivial)
  · refine (tracks_declined here more).andThen (fun result next read _ _ => ?_) .inr must
    obtain ⟨rfl, rfl⟩ : false = result ∧ cursor = next := by
      rw [accept, if_neg (by simp [here])] at read
      exact Outcome.value.inj read
    exact no

theorem tracks_accept {kind : TokenKind} {found found' other other' : Reader α}
    (more : kind ≠ .endOfFile)
    (yes : ∀ next, cursor.Onward next → next.rest.length < cursor.rest.length →
      Tracks old new False closed found found' next)
    (no : Tracks old new takes closed other other' cursor) (must : closed → takes) :
    Tracks old new takes closed (accept kind >>= fun here => if here = true then found else other)
      (accept kind >>= fun here => if here = true then found' else other') cursor :=
  tracks_accept_or more yes no (.inr ∘ must)

theorem tracks_expect {kind : TokenKind} (expected : String) (more : kind ≠ .endOfFile) :
    Tracks old new True closed (expect kind expected) (expect kind expected) cursor :=
  tracks_accept more (fun _ _ _ => tracks_pure ()) (tracks_failExpected expected) fun _ => trivial

theorem tracks_identifier : Tracks old new True closed identifier identifier cursor := by
  refine tracks_currentKind ?_ fun _ => trivial
  cases here : cursor.current.kind with
  | identifier name =>
      exact (tracks_advance here (by simp)).map
  | _ => exact tracks_failExpected _

/-- Where there is nothing in front of `old`, there is nothing to track. -/
theorem Tracks.of_short {two' : Reader α} (tracks : Tracks old new takes closed one two cursor)
    (must : closed → takes) (short : cursor.rest.length ≤ old.length) :
    Tracks old new takes closed one two' cursor := by
  have none : ∀ front, cursor.rest = front ++ old → front = [] := fun front ahead =>
    List.length_eq_zero_iff.mp (by rw [ahead, List.length_append] at short; omega)
  refine ⟨tracks.onward, tracks.shorter, ?_, ?_⟩
  · intro _ front left result last _ ahead read atEnd
    obtain rfl := none front ahead
    by_cases some : left = []
    · have shorter := tracks.shorter (must (atEnd some)) _ _ read
      rw [ahead, some] at shorter
      exact absurd shorter (Nat.lt_irrefl _)
    · exact absurd rfl (ne_nil_of_reachable (tracks.onward_value read).toReachable ahead rfl some)
  · intro _ front left fault last _ ahead read some
    have reach := (tracks.onward_failure read).toReachable
    exact absurd (none front ahead) (ne_nil_of_reachable reach ahead rfl some)

/-- One loop tracks another, if a turn does so wherever the turns behind it do. -/
theorem tracks_loop (loop loop' : Nat → β → Reader α) {bound : Nat} (must : closed → takes)
    (start : ∀ state (cursor : Cursor), cursor.rest.length < bound →
      ∃ two, Tracks old new takes closed (loop 0 state) two cursor)
    (step : ∀ turns other state (cursor : Cursor), cursor.rest.length < bound →
      (∀ state (next : Cursor), next.rest.length < cursor.rest.length →
        Tracks old new takes closed (loop turns state) (loop' other state) next) →
      Tracks old new takes closed (loop (turns + 1) state) (loop' (other + 1) state) cursor)
    {turns other : Nat} (enough : cursor.Enough old new turns other)
    (within : cursor.rest.length < bound) (state : β) :
    Tracks old new takes closed (loop turns state) (loop' other state) cursor := by
  induction turns generalizing other state cursor with
  | zero =>
      obtain ⟨two, tracks⟩ := start state cursor within
      exact tracks.of_short must (Nat.le_trans enough.here (Nat.zero_le _))
  | succ turns ih =>
      have turn : ∀ other, cursor.Enough old new (turns + 1) (other + 1) →
          Tracks old new takes closed (loop (turns + 1) state) (loop' (other + 1) state) cursor :=
        fun other enough => step turns other state cursor within fun state next shorter =>
          ih (enough.shorter shorter) (Nat.lt_trans shorter within) state
      cases other with
      | succ other => exact turn other enough
      | zero =>
          -- the second loop takes no turn, so there is nothing in front of `old` or `new`
          refine (turn (cursor.rest.length + new.length) ⟨enough.here, by omega⟩).of_short must ?_
          have := enough.there
          omega

/-- One reader tracks another wherever fewer tokens are ahead than a bound. -/
def TracksBelow (old new : List Token) (takes closed : Prop) (bound : Nat) (one two : Reader α) : Prop :=
  ∀ cursor : Cursor, cursor.rest.length < bound → Tracks old new takes closed one two cursor

/-- Readers that are built in layers, each layer reading with fewer tokens ahead what is inside of it,
track themselves if they have enough layers. -/
theorem tracks_layers {level : Nat → Reader α} {layer : Reader α → Reader α} {expected : String}
    (bottom : level 0 = failExpected expected) (above : ∀ depth, level (depth + 1) = layer (level depth))
    (must : closed → takes)
    (layers : ∀ (inner inner' : Reader α) (cursor : Cursor),
      TracksBelow old new takes closed cursor.rest.length inner inner' →
      Tracks old new takes closed (layer inner) (layer inner') cursor)
    {turns other : Nat} (enough : cursor.Enough old new turns other) :
    Tracks old new takes closed (level (turns + 1)) (level (other + 1)) cursor := by
  refine tracks_loop (fun turns (_ : Unit) => level (turns + 1)) (fun other _ => level (other + 1)) must
    (fun _ cursor _ => ⟨level 1, ?_⟩) (fun turns other _ cursor _ again => ?_) enough
    (Nat.lt_succ_self _) ()
  · rw [above, bottom]
    exact layers _ _ cursor fun _ _ => tracks_failExpected expected
  · rw [above (turns + 1), above (other + 1)]
    exact layers _ _ cursor fun next shorter => again () next shorter

end Reader

end DataClass.Grammar
