import DataClass.Proofs.Grammar.Cutting.Syntax
namespace DataClass.Grammar.Reader

/-! Bodies in a text that is cut. A body that is cut reports what is missing to its last part, if that is
not complete, and what was missing inside of this part. Its own closing brace is missing then, too. -/

variable {α : Type} {stop : Nat} {old : List Token} {takes : Prop} {cursor : Cursor}
  {bound turns other : Nat} {recovery : Recovery} {part part' : Reader α}

/-- At the end of a text a body has no more parts. -/
theorem parts_at_end (part : Reader α) (turns : Nat) (last : Option Span) (reported : List Diagnostic) :
    parts recovery part turns ⟨last, [.ending stop], reported⟩ =
      .value [] ⟨last, [.ending stop], reported⟩ := by
  cases turns with
  | zero => rfl
  | succ turns => exact parts_of_end rfl

theorem resume_at_end (fault : Diagnostic) (last : Option Span) (reported : List Diagnostic) :
    Cursor.resume ⟨last, [.ending stop], reported⟩ recovery fault =
      ⟨last, [.ending stop], fault :: reported⟩ := by
  simp [Cursor.resume, Recovery.skip, Token.ending]

/-- The first part of a body in which nothing is reported, and the parts behind it. -/
theorem exists_first_part {values : List α} {next : Cursor}
    (inside : CutsBelow stop old true false True bound part part') (within : cursor.rest.length < bound)
    (more : recovery.isEnd cursor.current.kind = false)
    (read : parts recovery part (turns + 1) cursor = .value values next)
    (quiet : next.reported = cursor.reported) :
    ∃ result middle later, part cursor = .value result middle ∧ values = result :: later ∧
      parts recovery part turns middle = .value later next ∧ cursor.Reachable middle ∧
      middle.Reachable next ∧ middle.rest.length < cursor.rest.length ∧
      middle.reported = cursor.reported := by
  have cuts := inside.cuts cursor within
  cases first : part cursor with
  | failure fault middle =>
      -- the fault would have been reported
      rw [parts_of_failure more first] at read
      have sooner := (cuts.onward_failure first).toReachable
      have reach := sooner.trans (middle.reachable_resume recovery fault)
      have behind : fault :: middle.reported <:+ next.reported :=
        (reachable_of_parts inside.tracks (Nat.lt_of_le_of_lt reach.length_le within) read).reported
      have least := Nat.le_trans behind.length_le (Nat.le_of_eq (congrArg List.length quiet))
      exact absurd (Nat.le_trans least sooner.reported.length_le) (Nat.not_succ_le_self _)
  | value result middle =>
      rw [parts_of_value more first] at read
      obtain ⟨later, final, further, finish⟩ := exists_first read
      obtain ⟨rfl, rfl⟩ := Outcome.value.inj finish
      have shorter := cuts.shorter trivial result middle first
      have sooner := (cuts.onward_value first).toReachable
      have behind := reachable_of_parts inside.tracks (Nat.lt_trans shorter within) further
      exact ⟨result, middle, later, rfl, rfl, further, sooner, behind, shorter,
        sooner.reported_eq behind quiet⟩

theorem level_parts {values : List α} {next : Cursor} {taken : List Token}
    (inside : CutsBelow stop old true false True bound part part') (within : cursor.rest.length < bound)
    (read : parts recovery part turns cursor = .value values next)
    (quiet : next.reported = cursor.reported) (ahead : cursor.rest = taken ++ next.rest) :
    openBodies taken = 0 := by
  induction turns generalizing cursor taken values with
  | zero =>
      cases read
      exact openBodies_of_stay ahead
  | succ turns ih =>
      by_cases ends : recovery.isEnd cursor.current.kind = true
      · rw [parts_of_end ends] at read
        cases read
        exact openBodies_of_stay ahead
      · obtain ⟨result, middle, later, first, rfl, further, sooner, behind, shorter, calm⟩ :=
          exists_first_part inside within (by simpa using ends) read quiet
        obtain ⟨front, rest, rfl, begins, goes⟩ := exists_taken sooner behind ahead
        rw [openBodies_append,
          (inside.cuts cursor within).level result middle front first calm begins, Int.zero_add]
        exact ih (Nat.lt_trans shorter within) further (quiet.trans calm.symm) goes

/-- The parts of a body come to the end of the text. Of what is `owed` there each thing that is missing
has been reported. -/
def Lacks (stop : Nat) (owed : Int) (body : Reader (List α)) (cursor : Cursor) : Prop :=
  ∃ values last faults,
    body cursor = .value values ⟨last, [.ending stop], faults ++ cursor.reported⟩ ∧
      (∀ fault ∈ faults, MissingAtEnd stop fault) ∧ owed = faults.length

theorem lacks_at_end (part : Reader α) (turns : Nat) (last : Option Span) (reported : List Diagnostic) :
    Lacks stop 0 (parts recovery part turns) ⟨last, [.ending stop], reported⟩ :=
  ⟨[], last, [], parts_at_end part turns last reported, by simp, rfl⟩

/-- The part at which the text ends is the last one. -/
theorem Stops.lacks {owed : Int} (stops : Stops stop owed false part cursor)
    (more : recovery.isEnd cursor.current.kind = false) :
    Lacks stop owed (parts recovery part (turns + 1)) cursor := by
  unfold Stops at stops
  generalize read : part cursor = outcome at stops
  cases stops with
  | @value result last paid =>
      refine ⟨[result], last, [], ?_, by simp, paid⟩
      rw [parts_of_value more read, bind_value (parts_at_end ..)]
      rfl
  | @failure fault faults last missing paid =>
      refine ⟨[], last, fault :: faults, ?_, missing, paid⟩
      rw [parts_of_failure more read, resume_at_end, parts_at_end]
      rfl

theorem Lacks.behind {owed : Int} {result : α} {next : Cursor}
    (later : Lacks stop owed (parts recovery part turns) next)
    (more : recovery.isEnd cursor.current.kind = false) (read : part cursor = .value result next)
    (calm : next.reported = cursor.reported) :
    Lacks stop owed (parts recovery part (turns + 1)) cursor := by
  obtain ⟨values, last, faults, goes, missing, paid⟩ := later
  refine ⟨result :: values, last, faults, ?_, missing, paid⟩
  rw [parts_of_value more read, bind_value goes, calm]
  rfl

/-- A body in which nothing is reported, if the text is cut inside of it: what is missing is reported. -/
theorem lacks_parts {values : List α} {next : Cursor} {front : List Token}
    (inside : CutsBelow stop old true false True bound part part') (within : cursor.rest.length < bound)
    (enough : cursor.Enough old [.ending stop] turns other) (placed : cursor.previous.isSome)
    (ahead : cursor.rest = front ++ old)
    (read : parts recovery part turns cursor = .value values next)
    (quiet : next.reported = cursor.reported) (far : next.rest.length ≤ old.length)
    (reported : List Diagnostic) :
    Lacks stop (owed false front) (parts recovery part' other)
      ⟨cursor.previous, front ++ [.ending stop], reported⟩ := by
  induction turns generalizing other cursor front values with
  | zero =>
      obtain rfl := eq_nil_of_length ahead (Nat.le_trans enough.here (Nat.zero_le _))
      exact lacks_at_end ..
  | succ turns ih =>
      by_cases none : front = []
      · subst none
        exact lacks_at_end ..
      obtain ⟨other, rfl⟩ := Nat.exists_eq_add_one.mpr (enough.pos ahead none).2
      by_cases ends : recovery.isEnd cursor.current.kind = true
      · -- the body ends in front of the cut
        rw [parts_of_end ends] at read
        cases read
        exact absurd (eq_nil_of_length ahead far) none
      have more : recovery.isEnd cursor.current.kind = false := by simpa using ends
      obtain ⟨result, middle, later, first, rfl, further, sooner, behind, shorter, calm⟩ :=
        exists_first_part inside within more read quiet
      rw [← current_front [.ending stop] reported ahead none] at more
      have cuts := inside.cuts cursor within
      by_cases here : middle.rest.length ≤ old.length
      · have stops := cuts.cut placed front result middle reported ahead first calm here
        rw [show owed true front = owed false front from
          (owed_append false [] none).trans (Int.zero_add _)] at stops
        exact stops.lacks more
      · obtain ⟨taken, left, rfl, some, rest, begins⟩ := exists_left sooner ahead here
        obtain ⟨place, tokens, faults⟩ := middle
        obtain rfl : tokens = left ++ old := rest
        obtain rfl : faults = cursor.reported := calm
        have goes := cuts.value placed _ left result place reported ahead first fun none => some none
        rw [owed_append false taken some, cuts.level result _ taken first rfl begins, Int.zero_add]
        exact (ih (Nat.lt_trans shorter within) (enough.shorter shorter) (sooner.placed placed) rfl
          further quiet).behind more goes rfl

theorem kind_of_expect {kind : TokenKind} {expected : String} {next : Cursor} {found : Unit}
    (read : expect kind expected cursor = .value found next) :
    cursor.current.kind = kind ∧ next = cursor.step := by
  by_cases here : cursor.current.kind = kind
  · rw [expect_of_kind here] at read
    exact ⟨here, (Outcome.value.inj read).2.symm⟩
  · have declines : accept kind cursor = .value false cursor := by simp [accept, here]
    rw [expect, bind_value declines] at read
    cases read

/-- A body in braces that has been read is an opening brace, parts and a closing brace. -/
theorem exists_parts_of_braced {opening closing : String} {values : List α} {next : Cursor}
    (read : braced recovery opening closing part cursor = .value values next) :
    ∃ first rest place last behind, cursor.rest = first :: rest ∧
      first.kind = .punctuation .leftBrace ∧ last.kind = .punctuation .rightBrace ∧
      parts recovery part rest.length ⟨some first.span, rest, cursor.reported⟩ =
        .value values ⟨place, last :: behind, next.reported⟩ ∧
      next = ⟨some last.span, behind, next.reported⟩ := by
  obtain ⟨_, inner, opens, read⟩ := exists_first read
  obtain ⟨here, rfl⟩ := kind_of_expect opens
  obtain ⟨_, _, counted, read⟩ := exists_first read
  cases counted
  obtain ⟨values', middle, inside, read⟩ := exists_first read
  obtain ⟨_, final, closes, read⟩ := exists_first read
  obtain ⟨there, rfl⟩ := kind_of_expect closes
  cases read
  obtain ⟨first, rest, begins, start, enters⟩ := exists_step here (by simp)
  obtain ⟨last, behind, ends, finish, leaves⟩ := exists_step there (by simp)
  rw [enters] at inside
  rw [leaves]
  obtain ⟨place, tokens, reported⟩ := middle
  obtain rfl : tokens = last :: behind := finish
  exact ⟨first, rest, place, last, behind, start, begins, ends, inside, rfl⟩

theorem expect_cons {kind : TokenKind} {expected : String} {token : Token} {tokens : List Token}
    {previous : Option Span} {reported : List Diagnostic} (here : token.kind = kind)
    (more : kind ≠ .endOfFile) :
    expect kind expected ⟨previous, token :: tokens, reported⟩ =
      .value () ⟨some token.span, tokens, reported⟩ := by
  have accepts : accept kind ⟨previous, token :: tokens, reported⟩ =
      .value true ⟨some token.span, tokens, reported⟩ := by
    simp [accept, Cursor.current, Cursor.step, here, more]
  exact bind_value accepts

/-- Inside of its braces a body is read as its parts. -/
theorem braced_of_opening {opening closing : String} {first : Token} {tokens : List Token}
    {previous : Option Span} {reported : List Diagnostic}
    (opens : first.kind = .punctuation .leftBrace) :
    braced recovery opening closing part ⟨previous, first :: tokens, reported⟩ =
      (parts recovery part tokens.length >>= fun body =>
        expect (.punctuation .rightBrace) closing >>= fun _ => pure body)
        ⟨some first.span, tokens, reported⟩ :=
  bind_value (expect_cons opens (by simp))

/-- Where the text ends inside of the braces, the closing one is missing, too. -/
theorem Lacks.braced {owed : Int} {begun : Bool} {closing : String} {first : Token}
    {tokens : List Token} {previous : Option Span} {reported : List Diagnostic}
    (inside : Lacks stop owed (parts recovery part tokens.length) ⟨some first.span, tokens, reported⟩)
    (opening : String) (opens : first.kind = .punctuation .leftBrace) :
    Stops stop (1 + owed) begun (braced recovery opening closing part)
      ⟨previous, first :: tokens, reported⟩ := by
  obtain ⟨values, last, faults, goes, missing, rfl⟩ := inside
  rw [Stops, braced_of_opening opens, bind_value goes, Int.add_comm]
  exact .failure (List.forall_mem_cons.mpr ⟨⟨closing, rfl⟩, missing⟩) rfl

theorem level_braced {opening closing : String} {values : List α} {next : Cursor}
    {taken : List Token} (inside : CutsBelow stop old true false True bound part part')
    (within : cursor.rest.length ≤ bound)
    (read : braced recovery opening closing part cursor = .value values next)
    (quiet : next.reported = cursor.reported) (ahead : cursor.rest = taken ++ next.rest) :
    openBodies taken = 0 := by
  obtain ⟨first, rest, place, last, behind, start, opens, closes, body, stops⟩ :=
    exists_parts_of_braced read
  have below : rest.length < bound := by
    rw [start] at within
    exact within
  obtain ⟨inner, whole⟩ := (reachable_of_parts inside.tracks below body).behind
  obtain rfl : [first] ++ inner ++ [last] = taken := by
    rw [start, stops, show rest = inner ++ last :: behind from whole.symm] at ahead
    exact List.append_cancel_right (by simpa using ahead)
  rw [openBodies_append, openBodies_append, openBodies_opening opens, openBodies_closing closes,
    level_parts inside below body quiet whole.symm]
  rfl

theorem stops_braced {opening closing : String} {values : List α} {next : Cursor}
    {front : List Token} {begun : Bool} (inside : CutsBelow stop old true false True bound part part')
    (within : cursor.rest.length ≤ bound) (ahead : cursor.rest = front ++ old) (some : front ≠ [])
    (read : braced recovery opening closing part cursor = .value values next)
    (quiet : next.reported = cursor.reported) (far : next.rest.length ≤ old.length)
    (reported : List Diagnostic) :
    Stops stop (owed begun front) false (braced recovery opening closing part')
      ⟨cursor.previous, front ++ [.ending stop], reported⟩ := by
  obtain ⟨first, rest, place, last, behind, start, opens, closes, body, stops⟩ :=
    exists_parts_of_braced read
  obtain ⟨token, front, rfl⟩ := List.exists_cons_of_ne_nil some
  obtain ⟨rfl, split⟩ := List.cons.inj (start.symm.trans ahead)
  have below : rest.length < bound := by
    rw [start] at within
    exact within
  have enough : Cursor.Enough ⟨.some first.span, rest, cursor.reported⟩ old [Token.ending stop]
      rest.length (front ++ [Token.ending stop]).length := Cursor.enough_remaining split
  have reach := reachable_of_parts inside.tracks below body
  rw [owed_cons false (by rw [opens]; rfl), openBodies_opening opens, List.cons_append]
  by_cases here : (last :: behind).length ≤ old.length
  · exact (lacks_parts inside below enough rfl split body quiet here reported).braced opening opens
  · -- the closing brace is the last token in front of the cut
    obtain ⟨taken, left, rfl, some, rest', begins⟩ := exists_left reach split here
    obtain ⟨token, left, rfl⟩ := List.exists_cons_of_ne_nil some
    obtain ⟨rfl, same⟩ := List.cons.inj rest'
    obtain rfl : left = [] := by
      rw [stops] at far
      exact @eq_nil_of_length old ⟨none, behind, []⟩ left same far
    obtain rfl : behind = old := same
    rw [quiet] at body
    have goes := parts_front inside.tracks below enough rfl reported split body some
    rw [Stops, braced_of_opening opens, bind_value goes, List.singleton_append,
      bind_value (expect_cons closes (by simp)), owed_concat, openBodies_append,
      level_parts inside below body rfl begins, openBodies_closing closes, closes]
    exact .value rfl

theorem cuts_braced (opening closing : String)
    (inside : CutsBelow stop old true false True bound part part')
    (within : cursor.rest.length ≤ bound) :
    Cuts stop old true false True (braced recovery opening closing part)
      (braced recovery opening closing part') cursor := by
  refine ⟨tracks_braced opening closing inside.tracks within, ?_, ?_⟩
  · intro values next taken read quiet ahead
    exact level_braced inside within read quiet ahead
  · intro placed front values next reported ahead read quiet far
    by_cases some : front = []
    · subst some
      rw [owed_nil]
      exact halts_of_failure (fun _ _ => ⟨opening, rfl⟩) _ _
    · exact stops_braced inside within ahead some read quiet far reported

end DataClass.Grammar.Reader
