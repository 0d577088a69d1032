import DataClass.Proofs.Token.Scanned
import DataClass.Proofs.Token.Stretch
namespace DataClass

namespace Token

/-! The tokens of a text cover it from end to end: what is between two of them is white space and
comments, and each of them stands for its piece of the text wherever that is. -/

theorem shift_injective (offset : Nat) : Function.Injective (Token.shift offset) := by
  rintro ⟨kind, ⟨start, stop⟩⟩ ⟨other, ⟨first, last⟩⟩ same
  simpa [Token.shift, Span.shift] using same

/-- White space and complete comments in front of a text. A comment that begins with two slashes is
complete at the end of its line, and a block comment at the first `*/` inside. -/
inductive Gap : List Char → List Char → Prop where
  | none (rest : List Char) : Gap [] rest
  | blank {char : Char} {gap rest : List Char} (white : char ∈ [' ', '\t', '\r', '\n'])
      (more : Gap gap rest) : Gap (char :: gap) rest
  | line {inside gap rest : List Char} (within : '\n' ∉ inside) (ends : Breaks (gap ++ rest))
      (more : Gap gap rest) : Gap ('/' :: '/' :: inside ++ gap) rest
  | block {inside gap rest : List Char} (within : ¬['*', '/'] <:+: inside ++ ['*'])
      (more : Gap gap rest) : Gap ('/' :: '*' :: inside ++ '*' :: '/' :: gap) rest

/-- The characters of a text that a range covers, and those on both sides. Both ends of the range
lie between two characters. -/
structure Covers (chars : List Char) (span : Span) (front piece back : List Char) : Prop where
  whole : chars = front ++ piece ++ back
  start : span.start = byteCount front
  stop : span.stop = byteCount front + byteCount piece

/-- The ranges between the tokens: from `start` to the first, and from each one to the next. -/
def gaps (start : Nat) : List Token → List Span
  | [] => []
  | token :: tokens => ⟨start, token.span.start⟩ :: gaps token.span.stop tokens

variable {position stop : Nat} {char : Char} {chars rest : List Char} {tokens : List Token}
  {faults : List Diagnostic} {kind : TokenKind}

/-- What is neither blank nor a comment stands for a token, or something is wrong with it. -/
theorem scanVisible_speaks (none : (scanVisible position char chars).token = none) :
    (scanVisible position char chars).faults ≠ [] := by
  unfold scanVisible at none ⊢
  split at none
  · cases none
  · cases none
  · split at none
    · cases none
    · split at none
      · unfold scanString at none ⊢
        dsimp only at none ⊢
        split at none
        · cases none
        · simp [*]
      · split at none
        · next digit =>
            unfold scanNumber at none ⊢
            dsimp only at none ⊢
            split at none
            · cases none
            · split at none
              · cases none
              · simp [*, Lexeme.faulty]
        · split at none
          · cases none
          · simp [*, Lexeme.faulty]

theorem scanStep_cases (position : Nat) (char : Char) (chars : List Char) :
    (isBlank char = true ∧ scanStep position char chars = .skipped (position + 1) chars) ∨
    (∃ rest, char = '/' ∧ chars = '/' :: rest) ∨ (∃ body, char = '/' ∧ chars = '*' :: body) ∨
    scanStep position char chars = scanVisible position char chars := by
  unfold scanStep
  split
  · next blank => exact .inl ⟨blank, rfl⟩
  · split
    · exact .inr (.inl ⟨_, rfl, rfl⟩)
    · exact .inr (.inr (.inl ⟨_, rfl, rfl⟩))
    · exact .inr (.inr (.inr rfl))

/-- A line comment goes on to the end of its line. -/
theorem gap_line {gap later : List Char} (split : rest.dropWhile (· != '\n') = gap ++ later)
    (more : Gap gap later) : Gap ('/' :: '/' :: rest.takeWhile (· != '\n') ++ gap) later := by
  have within : '\n' ∉ rest.takeWhile (· != '\n') := fun inside => by
    simpa using List.all_eq_true.mp List.all_takeWhile _ inside
  refine .line within (fun next head => ?_) more
  have stops := List.head?_dropWhile_not (· != '\n') rest
  rw [split, head] at stops
  simpa using stops

/-- A block comment that does not complain has been read to its end. -/
theorem scanBlockComment_of_clean {body : List Char} (clean : (scanBlockComment position body).faults = []) :
    ∃ inside behind, body = inside ++ '*' :: '/' :: behind ∧ ¬['*', '/'] <:+: inside ++ ['*'] ∧
      scanBlockComment position body = .skipped (position + (2 + byteCount inside + 2)) behind := by
  unfold scanBlockComment at clean ⊢
  cases found : afterComment? (position + 2) body with
  | none =>
      rw [found] at clean
      cases clean
  | some behind =>
      obtain ⟨stop, rest⟩ := behind
      obtain ⟨inside, front, stops, first, _⟩ := afterComment?_front found
      refine ⟨inside, rest, front, first, ?_⟩
      rw [stops, ← Nat.add_assoc, ← Nat.add_assoc]

/-- A step that finds no token and nothing wrong goes past a blank or a comment. -/
theorem exists_gap_of_scanStep (none : (scanStep position char chars).token = none)
    (clean : (scanStep position char chars).faults = []) :
    ∃ skipped, char :: chars = skipped ++ (scanStep position char chars).rest ∧
      (scanStep position char chars).stop = position + byteCount skipped ∧
      ∀ gap rest, (scanStep position char chars).rest = gap ++ rest → Gap gap rest →
        Gap (skipped ++ gap) rest := by
  rcases scanStep_cases position char chars with
    ⟨blank, step⟩ | ⟨rest, rfl, rfl⟩ | ⟨body, rfl, rfl⟩ | step
  · rw [step]
    refine ⟨[char], rfl, ?_, fun gap rest _ more => .blank ?_ more⟩
    · rw [byteCount_cons, utf8Size_of_blank blank]
      rfl
    · simpa [isBlank, or_assoc] using blank
  · have step : scanStep position '/' ('/' :: rest) =
        .skipped (position + byteCount ('/' :: '/' :: rest.takeWhile (· != '\n')))
          (rest.dropWhile (· != '\n')) := rfl
    rw [step]
    exact ⟨'/' :: '/' :: rest.takeWhile (· != '\n'), by simp [Lexeme.skipped], rfl,
      fun gap later => gap_line⟩
  · have step : scanStep position '/' ('*' :: body) = scanBlockComment position body := rfl
    rw [step] at clean ⊢
    obtain ⟨inside, behind, rfl, first, comment⟩ := scanBlockComment_of_clean clean
    have size : byteCount ('/' :: '*' :: inside ++ ['*', '/']) = 2 + byteCount inside + 2 := by
      rw [byteCount_append, byteCount_cons, byteCount_cons, ← Nat.add_assoc]
      rfl
    rw [comment]
    refine ⟨'/' :: '*' :: inside ++ ['*', '/'], by simp [Lexeme.skipped], by rw [size]; rfl,
      fun gap later split more => ?_⟩
    simpa using Gap.block first more
  · rw [step] at none clean
    exact absurd clean (scanVisible_speaks none)

/-- A stretch in which nothing is found is a gap. -/
theorem Scans.gap (scans : Scans position chars [] [] stop rest) :
    ∃ gap, chars = gap ++ rest ∧ stop = position + byteCount gap ∧ Gap gap rest := by
  generalize found : ([] : List Token) = tokens at scans
  generalize clean : ([] : List Diagnostic) = faults at scans
  induction scans with
  | stay position chars => exact ⟨[], rfl, rfl, .none chars⟩
  | @step position stop char chars rest tokens faults behind ih =>
      obtain ⟨here, later⟩ := List.append_eq_nil_iff.mp found.symm
      obtain ⟨right, clean⟩ := List.append_eq_nil_iff.mp clean.symm
      obtain ⟨gap, split, stops, more⟩ := ih later.symm clean.symm
      have none : (scanStep position char chars).token = none := by
        cases token : (scanStep position char chars).token with
        | none => rfl
        | some kind => simp [Lexeme.tokens, token] at here
      obtain ⟨skipped, front, ends, grows⟩ := exists_gap_of_scanStep none right
      refine ⟨skipped ++ gap, ?_, ?_, grows gap rest split more⟩
      · rw [front, split, List.append_assoc]
      · rw [stops, ends, byteCount_append, Nat.add_assoc]

/-- A piece of a text that is one token, wherever the scanner meets it. -/
def StandsFor (piece : List Char) (kind : TokenKind) : Prop :=
  scan (String.ofList piece) = .ok [⟨kind, ⟨0, byteCount piece⟩⟩, ending (byteCount piece)]

/-- What is found by a step is found in its piece of the text alone. -/
theorem exists_piece_of_scanStep (found : (scanStep position char chars).token = some kind)
    (clean : (scanStep position char chars).faults = []) :
    ∃ piece, char :: chars = piece ++ (scanStep position char chars).rest ∧
      (scanStep position char chars).stop = position + byteCount piece ∧ 0 < byteCount piece ∧
      StandsFor piece kind := by
  obtain ⟨front, takes, same⟩ := settles_scanStep position char chars
  have stops : (scanStep position char chars).stop = position + byteCount (char :: front) := by
    rw [takes.stop, byteCount_cons, Nat.add_assoc]
  refine ⟨char :: front, congrArg _ takes.front, stops, Nat.add_pos_left char.utf8Size_pos _, ?_⟩
  have alone := same (by simp [clean]) [] (Breaks.alike nofun)
  rw [List.append_nil] at alone
  have scans := @Scans.step_token _ [] [] [] ⟨kind, ⟨position, position + byteCount (char :: front)⟩⟩
    char front (by rw [alone]; exact found) (by rw [alone]; exact stops) (by rw [alone]; exact .stay _ _)
  rw [alone, List.append_nil, show ((scanStep position char chars).before []).faults = [] from clean] at scans
  obtain ⟨tokens, read, moved⟩ := scans.exists_alone
  rw [StandsFor, read]
  refine congrArg _ ((List.map_inj_right fun _ _ => (shift_injective position ·)).mp (moved.trans ?_))
  simp [Token.shift, Span.shift, ending, Nat.add_comm]

/-- A token that is found, in the text that begins with `front`. -/
structure IsPlaced (whole : List Char) (position : Nat) (token : Token) : Prop where
  found : token.kind ≠ .endOfFile
  behind : position ≤ token.span.start
  filled : token.span.start < token.span.stop
  covers : ∃ front piece back, Covers whole token.span front piece back ∧ StandsFor piece token.kind

/-- From some place of a text to its end, tokens and gaps take turns. -/
theorem Scans.tiles (scans : Scans position chars tokens [] stop []) (front : List Char)
    (start : position = byteCount front) :
    (∀ token ∈ tokens, IsPlaced (front ++ chars) position token) ∧
      tokens.Pairwise (fun token next => token.span.stop ≤ next.span.start) ∧
      ∀ span ∈ gaps position (tokens ++ [ending stop]), ∃ before gap back,
        Covers (front ++ chars) span before gap back ∧ Gap gap back := by
  induction tokens generalizing position chars front with
  | nil =>
      obtain ⟨gap, rfl, rfl, more⟩ := scans.gap
      refine ⟨nofun, .nil, fun span inside => ?_⟩
      obtain rfl := List.mem_singleton.mp inside
      exact ⟨front, gap, [], ⟨by rw [List.append_assoc], start, by rw [start]; rfl⟩, more⟩
  | cons token tokens ih =>
      obtain ⟨none, char, between, later, before, found, stops, behind, clean⟩ := scans.token
      obtain ⟨pieces, rfl⟩ := List.append_eq_nil_iff.mp clean.symm
      obtain ⟨rfl, clear⟩ := List.append_eq_nil_iff.mp pieces
      obtain ⟨gap, rfl, first, more⟩ := before.gap
      obtain ⟨piece, split, ends, filled, alone⟩ := exists_piece_of_scanStep found clear
      rw [stops] at ends
      have place : token.span.start = byteCount (front ++ gap) := by
        rw [first, start, byteCount_append]
      have next : token.span.stop = byteCount (front ++ gap ++ piece) := by
        rw [ends, place, byteCount_append (front ++ gap)]
      obtain ⟨inside, ordered, rest⟩ := ih behind (front ++ gap ++ piece) next
      rw [List.append_assoc (front ++ gap), ← split, List.append_assoc front] at inside rest
      have here : IsPlaced (front ++ (gap ++ char :: between)) position token :=
        { found := (isFound_scanStep found).2
          behind := by omega
          filled := by omega
          covers := ⟨front ++ gap, piece, _, ⟨by rw [split, List.append_assoc, List.append_assoc],
            place, by omega⟩, alone⟩ }
      refine ⟨List.forall_mem_cons.mpr ⟨here, fun other among => ?_⟩,
        List.pairwise_cons.mpr ⟨fun other among => (inside other among).behind, ordered⟩, ?_⟩
      · obtain ⟨visible, after, wide, covers⟩ := inside other among
        exact ⟨visible, by omega, wide, covers⟩
      · refine List.forall_mem_cons.mpr ⟨⟨front, gap, _, ⟨by rw [List.append_assoc], start, ?_⟩, more⟩, rest⟩
        rw [place, byteCount_append]

/-- Some tokens in the middle of a text are found in their piece of it alone. -/
theorem Scans.exists_piece {before run after : List Token}
    (scans : Scans 0 chars (before ++ (run ++ after)) [] stop rest) {span : Span}
    (first : run.head?.map (·.span.start) = some span.start)
    (last : run.getLast?.map (·.span.stop) = some span.stop) :
    ∃ front piece back, Covers chars span front piece back ∧ ∃ found,
      scan (String.ofList piece) = .ok found ∧
      found.map (Token.shift span.start) = run ++ [ending span.stop] := by
  obtain ⟨begun, _, faults, more, start, behind, clean, _⟩ := scans.split
  obtain ⟨rfl, rfl⟩ := List.append_eq_nil_iff.mp clean.symm
  obtain ⟨middle, back, faults, more, here, _, clean, ends⟩ := behind.split
  obtain ⟨rfl, rfl⟩ := List.append_eq_nil_iff.mp clean.symm
  rw [last, Option.getD_some] at ends
  subst ends
  cases run with
  | nil => cases first
  | cons token run =>
      have begins : token.span.start = span.start := Option.some.inj first
      obtain ⟨faults, left, more, gap, here, clean⟩ := here.at_token
      obtain ⟨rfl, rfl⟩ := List.append_eq_nil_iff.mp clean.symm
      rw [begins] at gap here
      obtain ⟨front, rfl, starts⟩ := (start.trans gap).front
      obtain ⟨piece, rfl, stops, alone⟩ := here.transfer nofun (show Alike _ [] from Breaks.alike nofun)
      rw [List.append_nil] at alone
      rw [Nat.zero_add] at starts
      refine ⟨front, piece, back, ⟨by rw [List.append_assoc], starts, ?_⟩, alone.exists_alone⟩
      rw [stops, starts]

theorem exists_scans_of_scan {source : String} (read : scan source = .ok tokens) :
    ∃ visible, Scans 0 source.toList visible [] (byteCount source.toList) [] ∧
      tokens = visible ++ [ending (byteCount source.toList)] := by
  obtain ⟨visible, faults, stop, scans⟩ := exists_scans 0 source.toList
  obtain ⟨taken, whole, stops⟩ := scans.front
  rw [List.append_nil] at whole
  rw [Nat.zero_add, ← whole] at stops
  subst stops
  rw [scan_eq_ok, scans.scanFrom_end] at read
  obtain ⟨rfl, rfl⟩ := Prod.mk.inj read
  exact ⟨visible, scans, rfl⟩

/-- The tokens of a text tile it. Behind the others stands the one that marks the end, at the end.
The others cover pieces of the text, one after the other, and each piece alone is the same token.
What is left of the text is white space and complete comments. -/
theorem scan_tiles {source : String} (read : scan source = .ok tokens) :
    ∃ visible, tokens = visible ++
        [⟨.endOfFile, ⟨byteCount source.toList, byteCount source.toList⟩⟩] ∧
      (∀ token ∈ visible, token.kind ≠ .endOfFile ∧ token.span.start < token.span.stop ∧
        ∃ front piece back, Covers source.toList token.span front piece back ∧
          StandsFor piece token.kind) ∧
      visible.Pairwise (fun token next => token.span.stop ≤ next.span.start) ∧
      ∀ span ∈ gaps 0 tokens, ∃ front gap back,
        Covers source.toList span front gap back ∧ Gap gap back := by
  obtain ⟨visible, scans, rfl⟩ := exists_scans_of_scan read
  obtain ⟨placed, ordered, between⟩ := scans.tiles [] rfl
  refine ⟨visible, rfl, fun token inside => ?_, ordered, between⟩
  have here := placed token inside
  exact ⟨here.found, here.filled, here.covers⟩

theorem scan_tiles_comment :
    scan "2.x /* é */" =
        .ok [⟨.int 2, ⟨0, 1⟩⟩, ⟨.punctuation .dot, ⟨1, 2⟩⟩, ⟨.identifier "x", ⟨2, 3⟩⟩,
          ⟨.endOfFile, ⟨12, 12⟩⟩] ∧
      ∃ front gap back, Covers "2.x /* é */".toList ⟨3, 12⟩ front gap back ∧ Gap gap back := by
  have read : scan "2.x /* é */" =
      .ok [⟨.int 2, ⟨0, 1⟩⟩, ⟨.punctuation .dot, ⟨1, 2⟩⟩, ⟨.identifier "x", ⟨2, 3⟩⟩,
        ⟨.endOfFile, ⟨12, 12⟩⟩] := by
    decide +kernel
  obtain ⟨_, _, _, _, between⟩ := scan_tiles read
  exact ⟨read, between ⟨3, 12⟩ (by decide)⟩

end Token

end DataClass
