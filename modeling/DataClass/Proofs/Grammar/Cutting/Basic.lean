import DataClass.Proofs.Grammar.Passing
import DataClass.Proofs.Token.Stretch
namespace DataClass

/-- Whether behind a token of this kind a part of a body or a whole body has just begun or ended. -/
def TokenKind.isSeam : TokenKind → Bool
  | .punctuation .leftBrace | .punctuation .rightBrace | .punctuation .semicolon => true
  | _ => false

namespace Grammar

/-! Texts that end too early. What is missing at the end is one closing brace for each body that is
open, and the rest of the part that has been begun. -/

/-- How many more bodies some tokens open than they close. -/
def openBodies (tokens : List Token) : Int :=
  (tokens.countP (·.kind == .punctuation .leftBrace) : Int) -
    tokens.countP (·.kind == .punctuation .rightBrace)

/-- Whether some tokens end inside of a part, where `begun` tells it of no tokens. -/
def endsInside (begun : Bool) (tokens : List Token) : Bool :=
  (tokens.getLast?.map fun token => !token.kind.isSeam).getD begun

/-- How much is missing behind some tokens. -/
def owed (begun : Bool) (tokens : List Token) : Int :=
  openBodies tokens + (endsInside begun tokens).toNat

section Owed

variable {begun : Bool} {tokens left : List Token} {token : Token}

@[simp] theorem openBodies_nil : openBodies [] = 0 := rfl

@[simp] theorem openBodies_append (front left : List Token) :
    openBodies (front ++ left) = openBodies front + openBodies left := by
  simp only [openBodies, List.countP_append, Int.natCast_add]
  omega

theorem openBodies_opening (opens : token.kind = .punctuation .leftBrace) : openBodies [token] = 1 := by
  simp [openBodies, opens]

theorem openBodies_closing (closes : token.kind = .punctuation .rightBrace) :
    openBodies [token] = -1 := by
  simp [openBodies, closes]

theorem openBodies_plain (opens : token.kind ≠ .punctuation .leftBrace)
    (closes : token.kind ≠ .punctuation .rightBrace) : openBodies [token] = 0 := by
  simp [openBodies, opens, closes]

theorem openBodies_of_stay {taken : List Token} (stays : tokens = taken ++ tokens) :
    openBodies taken = 0 := by
  rw [List.self_eq_append_left.mp stays, openBodies_nil]

@[simp] theorem owed_nil : owed begun [] = begun.toNat := by
  simp [owed, endsInside]

theorem owed_append (begun' : Bool) (front : List Token) (more : left ≠ []) :
    owed begun (front ++ left) = openBodies front + owed begun' left := by
  obtain ⟨last, ends⟩ := Option.isSome_iff_exists.mp (List.getLast?_isSome.mpr more)
  simp [owed, endsInside, List.getLast?_append, ends, Int.add_assoc]

/-- Behind the first token nothing is known of what was in front of it. -/
theorem owed_cons (begun' : Bool) (seam : token.kind.isSeam = !begun') (left : List Token) :
    owed begun (token :: left) = openBodies [token] + owed begun' left := by
  cases left with
  | nil => simp [owed, endsInside, seam]
  | cons next left => exact owed_append begun' [token] (List.cons_ne_nil next left)

theorem owed_concat (front : List Token) (last : Token) :
    owed begun (front ++ [last]) = openBodies (front ++ [last]) + (!last.kind.isSeam).toNat := by
  simp [owed, endsInside]

end Owed

/-- What is reported where something is missing at the end of a text. -/
def MissingAtEnd (stop : Nat) (fault : Diagnostic) : Prop :=
  ∃ expected, fault = .syntaxFault
    ("Expected " ++ expected ++ ", found " ++ TokenKind.endOfFile.describe) ⟨stop, stop⟩

/-- A reader has come to the end of a text. With a value there is no more `owed` than a part that has
been `begun` owes. The fault of a failure, and those reported on the way, are as many as is `owed`,
and each is about something that is missing at the end. -/
inductive Outcome.AtEnd {α : Type} (stop : Nat) (owed : Int) (begun : Bool)
    (reported : List Diagnostic) : Outcome α → Prop where
  | value {result : α} {last : Option Span} (paid : owed = begun.toNat) :
      AtEnd stop owed begun reported (.value result ⟨last, [.ending stop], reported⟩)
  | failure {fault : Diagnostic} {faults : List Diagnostic} {last : Option Span}
      (missing : ∀ found ∈ fault :: faults, MissingAtEnd stop found)
      (paid : owed = faults.length + 1) :
      AtEnd stop owed begun reported (.failure fault ⟨last, [.ending stop], faults ++ reported⟩)

namespace Reader

variable {α β : Type} {stop : Nat}

/-- From a cursor the reader comes to the end of the text. -/
def Stops (stop : Nat) (owed : Int) (begun : Bool) (reader : Reader α) (cursor : Cursor) : Prop :=
  (reader cursor).AtEnd stop owed begun cursor.reported

/-- At the end of a text the reader stays where it is. -/
def Halts (stop : Nat) (begun begun' : Bool) (reader : Reader α) : Prop :=
  ∀ last reported, Stops stop begun.toNat begun' reader ⟨last, [.ending stop], reported⟩

section Ends

variable {begun middle begun' : Bool} {owed : Int} {cursor : Cursor}

theorem Stops.bind {reader : Reader β} {following : β → Reader α}
    (first : Stops stop owed middle reader cursor)
    (later : ∀ result, Halts stop middle begun' (following result)) :
    Stops stop owed begun' (reader >>= following) cursor := by
  unfold Stops at first
  generalize here : reader cursor = outcome at first
  cases first with
  | @value result last paid =>
      rw [Stops, bind_value here, paid]
      exact later result last cursor.reported
  | failure missing paid =>
      rw [Stops, bind_failure here]
      exact .failure missing paid

theorem Halts.bind {reader : Reader β} {following : β → Reader α}
    (first : Halts stop begun middle reader)
    (later : ∀ result, Halts stop middle begun' (following result)) :
    Halts stop begun begun' (reader >>= following) :=
  fun last reported => (first last reported).bind later

/-- A reader for which something has to stand at the end of the text. -/
theorem halts_of_failure {reader : Reader α}
    (fails : ∀ last reported, ∃ expected, reader ⟨last, [.ending stop], reported⟩ =
      failExpected expected ⟨last, [.ending stop], reported⟩) : Halts stop true begun' reader := by
  intro last reported
  obtain ⟨expected, here⟩ := fails last reported
  rw [Stops, here]
  exact @Outcome.AtEnd.failure _ _ _ _ _ _ [] _
    (fun found inside => ⟨expected, List.mem_singleton.mp inside⟩) rfl

/-- A reader for which nothing has to stand at the end of the text. -/
theorem halts_of_value {reader : Reader α}
    (passes : ∀ last reported, ∃ result, reader ⟨last, [.ending stop], reported⟩ =
      .value result ⟨last, [.ending stop], reported⟩) : Halts stop begun begun reader := by
  intro last reported
  obtain ⟨result, here⟩ := passes last reported
  rw [Stops, here]
  exact .value rfl

theorem halts_failExpected (expected : String) :
    Halts stop true begun' (failExpected expected : Reader α) :=
  halts_of_failure fun _ _ => ⟨expected, rfl⟩

theorem halts_pure (result : α) : Halts stop begun begun (pure result) :=
  halts_of_value fun _ _ => ⟨result, rfl⟩

end Ends

/-- In front of the tokens `old` a text is cut. What the first reader reads as a value in the whole
text, without reporting a fault, opens as many bodies as it closes. Where it goes past the cut, the
second reader comes to the end of the text that is cut; `begun` and `begun'` tell whether a part has
been begun in front of what is read and behind it. -/
structure Cuts (stop : Nat) (old : List Token) (begun begun' : Bool) (takes : Prop)
    (one two : Reader α) (cursor : Cursor) : Prop
    extends Tracks old [.ending stop] takes False one two cursor where
  level : ∀ result next taken, one cursor = .value result next →
    next.reported = cursor.reported → cursor.rest = taken ++ next.rest → openBodies taken = 0
  cut : cursor.previous.isSome → ∀ front result next reported, cursor.rest = front ++ old →
    one cursor = .value result next → next.reported = cursor.reported →
    next.rest.length ≤ old.length →
    Stops stop (owed begun front) begun' two ⟨cursor.previous, front ++ [.ending stop], reported⟩

/-- A reader cuts another one wherever fewer tokens are ahead than a bound, and halts at the end. -/
structure CutsBelow (stop : Nat) (old : List Token) (begun begun' : Bool) (takes : Prop) (bound : Nat)
    (one two : Reader α) : Prop where
  cuts : ∀ cursor : Cursor, cursor.rest.length < bound →
    Cuts stop old begun begun' takes one two cursor
  halts : Halts stop begun begun' two

variable {old : List Token} {begun middle begun' : Bool} {takes takes' more : Prop}
  {one two : Reader α} {cursor : Cursor}

theorem CutsBelow.tracks {bound : Nat}
    (cuts : CutsBelow stop old begun begun' takes bound one two) :
    TracksBelow old [.ending stop] takes False bound one two :=
  fun cursor within => (cuts.cuts cursor within).toTracks

theorem Cuts.loosen (cuts : Cuts stop old begun begun' takes one two cursor) :
    Cuts stop old begun begun' False one two cursor :=
  ⟨cuts.toTracks.loosen, cuts.level, cuts.cut⟩

/-- Where reading has not come to the cut there are tokens left in front of it. -/
theorem exists_left {front : List Token} {next : Cursor} (reach : cursor.Reachable next)
    (ahead : cursor.rest = front ++ old) (short : ¬next.rest.length ≤ old.length) :
    ∃ taken left, front = taken ++ left ∧ left ≠ [] ∧ next.rest = left ++ old ∧
      cursor.rest = taken ++ next.rest := by
  obtain ⟨taken, begins⟩ := reach.behind
  rcases List.append_eq_append_iff.mp (begins.trans ahead) with ⟨left, whole, rest⟩ | ⟨lost, _, rest⟩
  · refine ⟨taken, left, whole, ?_, rest, begins.symm⟩
    rintro rfl
    exact short (Nat.le_of_eq (congrArg List.length rest))
  · rw [rest, List.length_append] at short
    omega

/-- What is taken on the way past a cursor is taken in front of it and behind it. -/
theorem exists_taken {middle next : Cursor} {taken : List Token} (sooner : cursor.Reachable middle)
    (later : middle.Reachable next) (ahead : cursor.rest = taken ++ next.rest) :
    ∃ before after, taken = before ++ after ∧ cursor.rest = before ++ middle.rest ∧
      middle.rest = after ++ next.rest := by
  obtain ⟨before, begins⟩ := sooner.behind
  obtain ⟨after, goes⟩ := later.behind
  refine ⟨before, after, ?_, begins.symm, goes.symm⟩
  rw [← begins, ← goes, ← List.append_assoc] at ahead
  exact (List.append_cancel_right ahead).symm

theorem Cuts.andThen {first second : Reader β} {one two : β → Reader α}
    (start : Cuts stop old begun middle takes' first second cursor)
    (later : ∀ result next, first cursor = .value result next → cursor.Onward next →
      (takes' → next.rest.length < cursor.rest.length) →
      Cuts stop old middle begun' more (one result) (two result) next)
    (halts : ∀ result, Halts stop middle begun' (two result)) (must : takes → takes' ∨ more) :
    Cuts stop old begun begun' takes (first >>= one) (second >>= two) cursor := by
  have known {result : β} {next : Cursor} (read : first cursor = .value result next) :
      Cuts stop old middle begun' more (one result) (two result) next :=
    later result next read (start.onward_value read) fun taken => start.shorter taken result next read
  refine ⟨start.toTracks.andThen (fun result next read onward shorter =>
    (later result next read onward shorter).toTracks) must False.elim, ?_, ?_⟩
  · intro final next taken read quiet ahead
    obtain ⟨result, between, first, read⟩ := exists_first read
    have sooner := (start.onward_value first).toReachable
    have behind := ((known first).onward_value read).toReachable
    have calm := sooner.reported_eq behind quiet
    obtain ⟨before, after, rfl, begins, goes⟩ := exists_taken sooner behind ahead
    rw [openBodies_append, start.level result between before first calm begins,
      (known first).level final next after read (quiet.trans calm.symm) goes]
    rfl
  · intro placed front final next reported ahead read quiet far
    obtain ⟨result, between, first, read⟩ := exists_first read
    have sooner := (start.onward_value first).toReachable
    have behind := ((known first).onward_value read).toReachable
    have calm := sooner.reported_eq behind quiet
    by_cases here : between.rest.length ≤ old.length
    · exact (start.cut placed front result between reported ahead first calm here).bind halts
    · -- the first reader stops in front of the cut, and so does the one in the text that is cut
      obtain ⟨taken, left, rfl, some, rest, begins⟩ := exists_left sooner ahead here
      obtain ⟨place, tokens, faults⟩ := between
      obtain rfl : tokens = left ++ old := rest
      obtain rfl : faults = cursor.reported := calm
      have goes := start.value placed _ left result place reported ahead first fun none => some none
      rw [Stops, bind_value goes, owed_append middle taken some,
        start.level result _ taken first rfl begins, Int.zero_add]
      exact (known first).cut (sooner.placed placed) left final next reported rfl read quiet far

/-- Going on with a reader that takes a token. -/
theorem Cuts.before {first second : Reader β} {one two : β → Reader α}
    (start : Cuts stop old begun middle takes' first second cursor)
    (halts : ∀ result, Halts stop middle begun' (two result))
    (later : ∀ result next, cursor.Onward next → (takes' → next.rest.length < cursor.rest.length) →
      Cuts stop old middle begun' True (one result) (two result) next) :
    Cuts stop old begun begun' takes (first >>= one) (second >>= two) cursor :=
  start.andThen (fun result next _ => later result next) halts fun _ => .inr trivial

/-- Going on with a reader for which something has to stand at the end of the text. -/
theorem Cuts.beforeMissing {first second : Reader β} {one two : β → Reader α}
    (start : Cuts stop old begun true takes' first second cursor)
    (fails : ∀ result last reported, ∃ expected, two result ⟨last, [.ending stop], reported⟩ =
      failExpected expected ⟨last, [.ending stop], reported⟩)
    (later : ∀ result next, cursor.Onward next → (takes' → next.rest.length < cursor.rest.length) →
      Cuts stop old true begun' True (one result) (two result) next) :
    Cuts stop old begun begun' takes (first >>= one) (second >>= two) cursor :=
  start.before (fun result => halts_of_failure (fails result)) later

/-- Going on with a reader that need not take a token. -/
theorem Cuts.bind {first second : Reader β} {one two : β → Reader α}
    (start : Cuts stop old begun middle takes' first second cursor)
    (halts : ∀ result, Halts stop middle begun' (two result))
    (later : ∀ result next, cursor.Onward next → (takes' → next.rest.length < cursor.rest.length) →
      Cuts stop old middle begun' False (one result) (two result) next)
    (must : takes → takes') :
    Cuts stop old begun begun' takes (first >>= one) (second >>= two) cursor :=
  start.andThen (fun result next _ => later result next) halts (.inl ∘ must)

theorem eq_nil_of_length {front : List Token} (ahead : cursor.rest = front ++ old)
    (short : cursor.rest.length ≤ old.length) : front = [] := by
  rw [ahead, List.length_append] at short
  exact List.length_eq_zero_iff.mp (by omega)

theorem cuts_pure (result : α) : Cuts stop old begun begun False (pure result) (pure result) cursor := by
  refine ⟨tracks_pure result, ?_, ?_⟩
  · rintro _ _ taken ⟨⟩ _ ahead
    exact openBodies_of_stay ahead
  · rintro _ front _ _ reported ahead ⟨⟩ _ far
    obtain rfl := eq_nil_of_length ahead far
    rw [owed_nil]
    exact halts_pure result _ _

/-- A reader that reads no value cuts whatever it tracks. -/
theorem cuts_of_failure (tracks : Tracks old [.ending stop] takes False one two cursor)
    (fails : ∀ result next, one cursor ≠ .value result next) :
    Cuts stop old begun begun' takes one two cursor :=
  ⟨tracks, fun result next _ read => absurd read (fails result next),
    fun _ _ result next _ _ read => absurd read (fails result next)⟩

theorem cuts_fail (fault : Diagnostic) :
    Cuts stop old begun begun' takes (fail fault) (fail fault : Reader α) cursor :=
  cuts_of_failure (tracks_fail fault) nofun

theorem cuts_failExpected (expected : String) :
    Cuts stop old begun begun' takes (failExpected expected) (failExpected expected : Reader α) cursor :=
  cuts_of_failure (tracks_failExpected expected) nofun

theorem cuts_look (look : Token → β) {one two : β → Reader α}
    (halts : Halts stop begun begun' (two (look (.ending stop))))
    (later : Cuts stop old begun begun' takes (one (look cursor.current)) (two (look cursor.current))
      cursor) :
    Cuts stop old begun begun' takes
      ((fun cursor => .value (look cursor.current) cursor : Reader β) >>= one)
      ((fun cursor => .value (look cursor.current) cursor : Reader β) >>= two) cursor := by
  refine ⟨tracks_look look later.toTracks False.elim, later.level, ?_⟩
  intro placed front result next reported ahead read quiet far
  by_cases some : front = []
  · subst some
    rw [owed_nil]
    exact halts _ _
  · have done := later.cut placed front result next reported ahead read quiet far
    rw [← current_front _ reported ahead some] at done
    exact done

theorem cuts_current {one two : Token → Reader α}
    (halts : Halts stop begun begun' (two (.ending stop)))
    (later : Cuts stop old begun begun' takes (one cursor.current) (two cursor.current) cursor) :
    Cuts stop old begun begun' takes (current >>= one) (current >>= two) cursor :=
  cuts_look id halts later

theorem cuts_currentKind {one two : TokenKind → Reader α}
    (halts : Halts stop begun begun' (two .endOfFile))
    (later : Cuts stop old begun begun' takes (one cursor.current.kind) (two cursor.current.kind)
      cursor) :
    Cuts stop old begun begun' takes (currentKind >>= one) (currentKind >>= two) cursor :=
  cuts_look Token.kind halts later

theorem cuts_isNext {kind : TokenKind} {one two : Bool → Reader α}
    (halts : Halts stop begun begun' (two (.endOfFile == kind)))
    (later : Cuts stop old begun begun' takes (one (cursor.current.kind == kind))
      (two (cursor.current.kind == kind)) cursor) :
    Cuts stop old begun begun' takes (isNext kind >>= one) (isNext kind >>= two) cursor :=
  cuts_look (·.kind == kind) halts later

theorem cuts_previousSpan {one two : Span → Reader α}
    (later : ∀ span, Cuts stop old begun begun' takes (one span) (two span) cursor) :
    Cuts stop old begun begun' takes (previousSpan >>= one) (previousSpan >>= two) cursor := by
  have known := later cursor.previousSpan
  refine ⟨tracks_previousSpan fun span => (later span).toTracks, known.level, ?_⟩
  intro placed front result next reported ahead read quiet far
  have same : Cursor.previousSpan ⟨cursor.previous, front ++ [.ending stop], reported⟩ =
      cursor.previousSpan := by
    obtain ⟨span, placed⟩ := Option.isSome_iff_exists.mp placed
    rw [Cursor.previousSpan, Cursor.previousSpan, placed]
    rfl
  have done := known.cut placed front result next reported ahead read quiet far
  rw [← same] at done
  exact done

theorem cuts_spanFrom (start : Nat) {one two : Span → Reader α}
    (later : ∀ span, Cuts stop old begun begun' takes (one span) (two span) cursor) :
    Cuts stop old begun begun' takes (spanFrom start >>= one) (spanFrom start >>= two) cursor :=
  cuts_previousSpan fun span => later ⟨start, max span.stop start⟩

theorem Cuts.map {first second : Reader β} {change : β → α}
    (inside : Cuts stop old begun begun' takes first second cursor) :
    Cuts stop old begun begun' takes (first >>= fun result => pure (change result))
      (second >>= fun result => pure (change result)) cursor :=
  inside.bind (fun _ => halts_pure _) (fun _ _ _ _ => cuts_pure _) id

theorem Cuts.placed {first second : Reader β} {start : Nat} {change : Span → β → α}
    (inside : Cuts stop old begun begun' takes first second cursor) :
    Cuts stop old begun begun' takes
      (first >>= fun result => spanFrom start >>= fun span => pure (change span result))
      (second >>= fun result => spanFrom start >>= fun span => pure (change span result)) cursor :=
  inside.bind (fun _ => halts_of_value fun _ _ => ⟨_, rfl⟩)
    (fun _ _ _ _ => cuts_spanFrom _ fun _ => cuts_pure _) id

theorem cuts_remaining {one two : Nat → Reader α}
    (later : ∀ other, cursor.Enough old [.ending stop] cursor.rest.length other →
      Cuts stop old begun begun' takes (one cursor.rest.length) (two other) cursor) :
    Cuts stop old begun begun' takes (remaining >>= one) (remaining >>= two) cursor := by
  have any := later (cursor.rest.length + 1) ⟨Nat.le_refl _, Nat.le_add_right ..⟩
  exact ⟨tracks_remaining fun other enough => (later other enough).toTracks, any.level,
    fun placed front result next reported ahead => (later _ (Cursor.enough_remaining ahead)).cut placed
      front result next reported ahead⟩

/-! ### Single tokens -/

/-- A token that is neither a brace nor the end. -/
def Plain (kind : TokenKind) : Prop :=
  kind ∉ [.endOfFile, .punctuation .leftBrace, .punctuation .rightBrace]

instance (kind : TokenKind) : Decidable (Plain kind) := inferInstanceAs (Decidable (_ ∉ _))

variable {kind : TokenKind}

theorem Plain.visible (plain : Plain kind) : kind ≠ .endOfFile := fun same => plain (by simp [same])

theorem Plain.openBodies {token : Token} (plain : Plain kind) (here : token.kind = kind) :
    openBodies [token] = 0 := by
  subst here
  exact openBodies_plain (fun same => plain (by simp [same])) fun same => plain (by simp [same])

theorem exists_step (here : cursor.current.kind = kind) (more : kind ≠ .endOfFile) :
    ∃ token rest, token.kind = kind ∧ cursor.rest = token :: rest ∧
      cursor.step = ⟨some token.span, rest, cursor.reported⟩ := by
  obtain ⟨previous, tokens, reported⟩ := cursor
  cases tokens with
  | nil => exact absurd here.symm more
  | cons token rest =>
      have known : token.kind = kind := here
      exact ⟨token, rest, known, rfl, by simp [Cursor.step, known, more]⟩

/-- A token that is no brace, and what is read behind it, where a part has been begun or not. -/
theorem cuts_of_step {found found' : Reader α} (middle : Bool) (plain : Plain kind)
    (seam : kind.isSeam = !middle) (here : cursor.current.kind = kind)
    (tracks : Tracks old [.ending stop] takes False one two cursor)
    (goes : one cursor = found cursor.step)
    (goes' : ∀ other : Cursor, other.current.kind = kind → two other = found' other.step)
    (halts : Halts stop begun begun' two)
    (later : Cuts stop old middle begun' takes' found found' cursor.step) :
    Cuts stop old begun begun' takes one two cursor := by
  obtain ⟨token, rest, known, start, step⟩ := exists_step here plain.visible
  have moves (left : List Token) (last : Option Span) (reported : List Diagnostic) :
      Cursor.step ⟨last, token :: left, reported⟩ = ⟨some token.span, left, reported⟩ := by
    simp [Cursor.step, known, plain.visible]
  rw [step] at goes later
  refine ⟨tracks, ?_, ?_⟩
  · intro result next taken read quiet ahead
    rw [goes] at read
    obtain ⟨more, behind⟩ := (later.onward_value read).behind
    obtain rfl : token :: more = taken := by
      rw [start, ← show more ++ next.rest = rest from behind, ← List.cons_append] at ahead
      exact List.append_cancel_right ahead
    rw [← List.singleton_append, openBodies_append, plain.openBodies known, Int.zero_add]
    exact later.level result next more read quiet behind.symm
  · intro placed front result next reported ahead read quiet far
    rw [goes] at read
    cases front with
    | nil =>
        rw [owed_nil]
        exact halts _ _
    | cons first front =>
        obtain ⟨rfl, behind⟩ := List.cons.inj (start.symm.trans ahead)
        rw [owed_cons middle (by rw [known, seam]), plain.openBodies known, Int.zero_add, Stops,
          List.cons_append, goes' ⟨_, token :: _, _⟩ known, moves]
        exact later.cut rfl front result next reported behind read quiet far

theorem cuts_advance (here : cursor.current.kind = kind) (plain : Plain kind)
    (seam : kind.isSeam = false) : Cuts stop old true true True advance advance cursor :=
  cuts_of_step true plain seam here (tracks_advance here plain.visible) rfl (fun _ _ => rfl)
    (halts_of_value fun _ _ => ⟨(), rfl⟩) (cuts_pure ())

section Accept

variable {found found' other other' : Reader α}

theorem accept_of_kind (here : cursor.current.kind = kind) :
    (accept kind >>= fun here => if here = true then found else other) cursor = found cursor.step :=
  bind_value (show accept kind cursor = .value true cursor.step by simp [accept, here])

theorem accept_of_ne (absent : cursor.current.kind ≠ kind) :
    (accept kind >>= fun here => if here = true then found else other) cursor = other cursor :=
  bind_value (show accept kind cursor = .value false cursor by simp [accept, absent])

theorem halts_accept (more : kind ≠ .endOfFile) (halts : Halts stop begun begun' other) :
    Halts stop begun begun' (accept kind >>= fun here => if here = true then found else other) := by
  intro last reported
  have absent : (Cursor.current ⟨last, [.ending stop], reported⟩).kind ≠ kind := more.symm
  rw [Stops, accept_of_ne absent]
  exact halts last reported

/-- Going on as the next token is of a kind or not. Behind one that is, a part has been begun or not. -/
theorem cuts_accept (middle : Bool) (plain : Plain kind) (seam : kind.isSeam = !middle)
    (halts : Halts stop begun begun' other')
    (yes : ∀ next, cursor.Onward next → next.rest.length < cursor.rest.length →
      Cuts stop old middle begun' False found found' next)
    (no : Cuts stop old begun begun' takes other other' cursor) :
    Cuts stop old begun begun' takes
      (accept kind >>= fun here => if here = true then found else other)
      (accept kind >>= fun here => if here = true then found' else other') cursor := by
  have tracks := tracks_accept plain.visible
    (fun next onward shorter => (yes next onward shorter).toTracks) no.toTracks False.elim
  have ends := @halts_accept _ _ _ _ _ found' _ plain.visible halts
  by_cases here : cursor.current.kind = kind
  · have shorter := Cursor.length_step (here ▸ plain.visible)
    exact cuts_of_step middle plain seam here tracks (accept_of_kind here)
      (fun _ known => accept_of_kind known) ends (yes cursor.step cursor.onward_step shorter)
  · refine ⟨tracks, ?_, ?_⟩
    · intro result next taken read
      exact no.level result next taken ((accept_of_ne here).symm.trans read)
    · intro placed front result next reported ahead read quiet far
      by_cases some : front = []
      · subst some
        rw [owed_nil]
        exact ends _ _
      · rw [accept_of_ne here] at read
        rw [← current_front [.ending stop] reported ahead some] at here
        rw [Stops, accept_of_ne here]
        exact no.cut placed front result next reported ahead read quiet far

end Accept

theorem cuts_expect (expected : String) (plain : Plain kind) (seam : kind.isSeam = !middle) :
    Cuts stop old true middle True (expect kind expected) (expect kind expected) cursor :=
  cuts_accept middle plain seam (halts_failExpected expected) (fun _ _ _ => cuts_pure ())
    (cuts_failExpected expected)

theorem cuts_identifier : Cuts stop old true true True identifier identifier cursor := by
  refine cuts_currentKind (halts_failExpected "identifier") ?_
  cases here : cursor.current.kind with
  | identifier name => exact (cuts_advance here (by simp [Plain]) rfl).map
  | _ => exact cuts_failExpected _

/-! ### Loops and layers -/

/-- Where there is nothing in front of `old`, only the end of the text is left. -/
theorem Cuts.of_short {two' : Reader α} (cuts : Cuts stop old begun begun' takes one two cursor)
    (halts : Halts stop begun begun' two') (short : cursor.rest.length ≤ old.length) :
    Cuts stop old begun begun' takes one two' cursor := by
  refine ⟨cuts.toTracks.of_short False.elim short, cuts.level, ?_⟩
  intro _ front _ _ reported ahead _ _ _
  obtain rfl := eq_nil_of_length ahead short
  rw [owed_nil]
  exact halts _ _

theorem cuts_loop (loop loop' : Nat → β → Reader α) {bound : Nat}
    (halts : ∀ other state, Halts stop begun begun' (loop' other state))
    (start : ∀ state (cursor : Cursor), cursor.rest.length < bound →
      ∃ two, Cuts stop old begun begun' takes (loop 0 state) two cursor)
    (step : ∀ turns other state (cursor : Cursor), cursor.rest.length < bound →
      (∀ state (next : Cursor), next.rest.length < cursor.rest.length →
        Cuts stop old begun begun' takes (loop turns state) (loop' other state) next) →
      Cuts stop old begun begun' takes (loop (turns + 1) state) (loop' (other + 1) state) cursor)
    {turns other : Nat} (enough : cursor.Enough old [.ending stop] turns other)
    (within : cursor.rest.length < bound) (state : β) :
    Cuts stop old begun begun' takes (loop turns state) (loop' other state) cursor := by
  induction turns generalizing other state cursor with
  | zero =>
      obtain ⟨two, cuts⟩ := start state cursor within
      exact cuts.of_short (halts other state) (Nat.le_trans enough.here (Nat.zero_le _))
  | succ turns ih =>
      have turn : ∀ other, cursor.Enough old [.ending stop] (turns + 1) (other + 1) →
          Cuts stop old begun begun' takes (loop (turns + 1) state) (loop' (other + 1) state) cursor :=
        fun other enough => step turns other state cursor within fun state next shorter =>
          ih (enough.shorter shorter) (Nat.lt_trans shorter within) state
      cases other with
      | succ other => exact turn other enough
      | zero =>
          refine (turn (cursor.rest.length + 1) ⟨enough.here, ?_⟩).of_short (halts 0 state) ?_
          · simp only [List.length_singleton]
            omega
          · have := enough.there
            omega

theorem cuts_layers {level : Nat → Reader α} {layer : Reader α → Reader α} {expected : String}
    (bottom : level 0 = failExpected expected) (above : ∀ depth, level (depth + 1) = layer (level depth))
    (halts : ∀ inner, Halts stop true begun' (layer inner))
    (layers : ∀ (inner inner' : Reader α) (cursor : Cursor),
      CutsBelow stop old true begun' takes cursor.rest.length inner inner' →
      Cuts stop old true begun' takes (layer inner) (layer inner') cursor)
    {turns other : Nat} (enough : cursor.Enough old [.ending stop] turns other) :
    Cuts stop old true begun' takes (level (turns + 1)) (level (other + 1)) cursor := by
  have ends : ∀ depth, Halts stop true begun' (level (depth + 1)) := fun depth => above depth ▸ halts _
  refine cuts_loop (fun turns (_ : Unit) => level (turns + 1)) (fun other _ => level (other + 1))
    (fun other _ => ends other) (fun _ cursor _ => ⟨level 1, ?_⟩)
    (fun turns other _ cursor _ again => ?_) enough (Nat.lt_succ_self _) ()
  · rw [above, bottom]
    exact layers _ _ cursor ⟨fun _ _ => cuts_failExpected expected, halts_failExpected expected⟩
  · rw [above (turns + 1), above (other + 1)]
    exact layers _ _ cursor ⟨fun next shorter => again () next shorter, ends other⟩

end Reader

end Grammar

end DataClass
