import DataClass.Proofs.Token.Lexeme
namespace DataClass

namespace Lexeme

theorem tokens_cases (start : Nat) (lexeme : Lexeme) :
    lexeme.tokens start = [] ∨
      ∃ kind, lexeme.token = some kind ∧ lexeme.tokens start = [⟨kind, ⟨start, lexeme.stop⟩⟩] := by
  obtain ⟨_ | kind, faults, stop, rest⟩ := lexeme
  · exact .inl rfl
  · exact .inr ⟨kind, rfl, rfl⟩

end Lexeme

namespace Token

/-! Stretches of a text that the scanner goes through in any number of steps. What is found in one
depends on the text in it and on no more of what stands behind than `Alike` tells apart; where the
stretch stands only moves it. -/

/-- The scanner gets from the first text to the second, which begin at these offsets, and finds
these tokens and faults on the way. -/
inductive Scans : Nat → List Char → List Token → List Diagnostic → Nat → List Char → Prop where
  | stay (position : Nat) (chars : List Char) : Scans position chars [] [] position chars
  | step {position stop : Nat} {char : Char} {chars rest : List Char} {tokens : List Token}
      {faults : List Diagnostic}
      (behind : Scans (scanStep position char chars).stop (scanStep position char chars).rest
        tokens faults stop rest) :
      Scans position (char :: chars) ((scanStep position char chars).tokens position ++ tokens)
        ((scanStep position char chars).faults ++ faults) stop rest

variable {position middle stop : Nat} {chars between rest other : List Char}
  {tokens later : List Token} {faults more : List Diagnostic}

/-- The mark of the end of a text. -/
def ending (position : Nat) : Token := ⟨.endOfFile, ⟨position, position⟩⟩

theorem Scans.trans (first : Scans position chars tokens faults middle between)
    (second : Scans middle between later more stop rest) :
    Scans position chars (tokens ++ later) (faults ++ more) stop rest := by
  induction first with
  | stay => exact second
  | step _ ih =>
      rw [List.append_assoc, List.append_assoc]
      exact .step (ih second)

theorem Scans.scanFrom_eq (scans : Scans position chars tokens faults stop rest) :
    scanFrom position chars =
      (tokens ++ (scanFrom stop rest).1, faults ++ (scanFrom stop rest).2) := by
  induction scans with
  | stay => rfl
  | step _ ih => rw [scanFrom, ih, List.append_assoc, List.append_assoc]

/-- The scanner goes through the whole text. -/
theorem exists_scans (position : Nat) (chars : List Char) :
    ∃ tokens faults stop, Scans position chars tokens faults stop [] := by
  fun_induction scanFrom position chars with
  | case1 position => exact ⟨_, _, _, .stay position []⟩
  | case2 position char rest lexeme later ih =>
      obtain ⟨tokens, faults, stop, behind⟩ := ih
      exact ⟨_, _, _, behind.step⟩

theorem scanFrom_nil (position : Nat) : scanFrom position [] = ([ending position], []) := by
  rw [scanFrom, ending]

theorem Scans.scanFrom_end (scans : Scans position chars tokens faults stop []) :
    scanFrom position chars = (tokens ++ [ending stop], faults) := by
  rw [scans.scanFrom_eq, scanFrom_nil, List.append_nil]

/-- The same stretch stands for the same tokens in front of a text that begins alike. -/
theorem Scans.transfer (scans : Scans position chars tokens faults stop rest)
    (ended : ∀ fault ∈ faults, ¬Unterminated fault) (alike : Alike rest other) :
    ∃ taken, chars = taken ++ rest ∧ stop = position + byteCount taken ∧
      Scans position (taken ++ other) tokens faults stop other := by
  induction scans with
  | stay position chars => exact ⟨[], rfl, rfl, .stay position other⟩
  | @step position stop char chars rest tokens faults behind ih =>
      obtain ⟨here, later⟩ := List.forall_mem_append.mp ended
      obtain ⟨front, takes, same⟩ := settles_scanStep position char chars
      obtain ⟨taken, left, stops, again⟩ := ih later alike
      have step : scanStep position char (front ++ (taken ++ other)) =
          (scanStep position char chars).before (taken ++ other) := by
        refine same here _ ?_
        rw [left]
        exact alike.append taken
      refine ⟨char :: front ++ taken, ?_, ?_, ?_⟩
      · rw [takes.front, left, List.cons_append, List.cons_append, List.append_assoc]
      · rw [stops, takes.stop, byteCount_append, byteCount_cons]
        omega
      · have run := @Scans.step position stop char (front ++ (taken ++ other)) other tokens faults
        rw [step] at run
        rw [List.cons_append, List.cons_append, List.append_assoc]
        exact run again

/-- A stretch covers a front of the text. -/
theorem Scans.front (scans : Scans position chars tokens faults stop rest) :
    ∃ taken, chars = taken ++ rest ∧ stop = position + byteCount taken := by
  induction scans with
  | stay => exact ⟨[], rfl, rfl⟩
  | @step position _ char chars _ _ _ _ ih =>
      obtain ⟨front, takes, _⟩ := settles_scanStep position char chars
      obtain ⟨taken, left, stops⟩ := ih
      refine ⟨char :: front ++ taken, ?_, ?_⟩
      · rw [takes.front, left, List.cons_append, List.cons_append, List.append_assoc]
      · rw [stops, takes.stop, byteCount_append, byteCount_cons]
        omega

theorem Scans.shift (scans : Scans position chars tokens faults stop rest) (offset : Nat) :
    Scans (position + offset) chars (tokens.map (Token.shift offset)) (faults.map (·.shift offset))
      (stop + offset) rest := by
  induction scans with
  | stay => exact .stay _ _
  | @step position stop char chars rest _ _ _ ih =>
      have run := @Scans.step (position + offset) (stop + offset) char chars rest
      rw [scanStep_shift] at run
      rw [List.map_append, List.map_append, ← Lexeme.tokens_shift]
      exact run ih

/-- Where a text begins only moves what is found in it. -/
theorem scanFrom_shift (position offset : Nat) (chars : List Char) :
    scanFrom (position + offset) chars =
      ((scanFrom position chars).1.map (Token.shift offset),
        (scanFrom position chars).2.map (·.shift offset)) := by
  obtain ⟨tokens, faults, stop, scans⟩ := exists_scans position chars
  rw [scans.scanFrom_end, (scans.shift offset).scanFrom_end, List.map_append]
  rfl

/-- What stands in front of a token is a stretch without tokens, and the token is found at the
place where its range begins. -/
theorem Scans.token {token : Token} (scans : Scans position chars (token :: tokens) faults stop rest) :
    ∃ front char between later, Scans position chars [] front token.span.start (char :: between) ∧
      (scanStep token.span.start char between).token = some token.kind ∧
      (scanStep token.span.start char between).stop = token.span.stop ∧
      Scans token.span.stop (scanStep token.span.start char between).rest tokens later stop rest ∧
      faults = front ++ (scanStep token.span.start char between).faults ++ later := by
  generalize found : token :: tokens = all at scans
  induction scans with
  | stay => cases found
  | @step position stop char chars rest behindTokens behindFaults behind ih =>
      rcases Lexeme.tokens_cases position (scanStep position char chars) with none | ⟨kind, here, one⟩
      · rw [none, List.nil_append] at found
        obtain ⟨front, next, between, later, before, same, stops, after, joined⟩ := ih found
        have step := (Scans.stay _ (scanStep position char chars).rest).step
        rw [none, List.append_nil, List.append_nil] at step
        refine ⟨_, next, between, later, step.trans before, same, stops, after, ?_⟩
        rw [joined, List.append_assoc, List.append_assoc, List.append_assoc]
      · rw [one] at found
        obtain ⟨rfl, rfl⟩ := List.cons.inj found
        exact ⟨[], char, chars, behindFaults, .stay position _, here, rfl, behind, rfl⟩

/-- A step at a token, and what is found behind it. -/
theorem Scans.step_token {token : Token} {char : Char} {between : List Char}
    (found : (scanStep token.span.start char between).token = some token.kind)
    (stops : (scanStep token.span.start char between).stop = token.span.stop)
    (behind : Scans token.span.stop (scanStep token.span.start char between).rest tokens faults stop rest) :
    Scans token.span.start (char :: between) (token :: tokens)
      ((scanStep token.span.start char between).faults ++ faults) stop rest := by
  have run := @Scans.step token.span.start stop char between rest tokens faults
  have one : (scanStep token.span.start char between).tokens token.span.start = [token] := by
    rw [Lexeme.tokens, found, stops]
    rfl
  rw [one, stops] at run
  exact run behind

/-- What has been found up to some token was found in front of the end of that token. -/
theorem Scans.split (scans : Scans position chars (tokens ++ later) faults stop rest) :
    ∃ middle between first second, Scans position chars tokens first middle between ∧
      Scans middle between later second stop rest ∧ faults = first ++ second ∧
      middle = (tokens.getLast?.map (·.span.stop)).getD position := by
  induction tokens generalizing position chars faults with
  | nil => exact ⟨_, _, _, _, .stay position chars, scans, rfl, rfl⟩
  | cons token tokens ih =>
      obtain ⟨front, char, left, back, before, found, stops, behind, rfl⟩ := scans.token
      obtain ⟨middle, between, first, second, here, after, rfl, ends⟩ := ih behind
      refine ⟨middle, between, _, second, before.trans (here.step_token found stops), after, ?_, ?_⟩
      · simp [List.append_assoc]
      · rw [ends, List.getLast?_cons, Option.map_some, Option.getD_some, Option.getD_map]

/-- What stands in front of the first token can be left out. -/
theorem Scans.at_token {token : Token}
    (scans : Scans position chars (token :: tokens) faults stop rest) :
    ∃ front left later, Scans position chars [] front token.span.start left ∧
      Scans token.span.start left (token :: tokens) later stop rest ∧ faults = front ++ later := by
  obtain ⟨front, char, left, back, before, found, stops, behind, rfl⟩ := scans.token
  exact ⟨front, char :: left, _, before, behind.step_token found stops, List.append_assoc ..⟩

theorem scan_eq_ok {source : String} {tokens : List Token} :
    scan source = .ok tokens ↔ scanFrom 0 source.toList = (tokens, []) := by
  unfold scan
  split
  · next found => simp [found]
  · next tokens faults wrong found =>
      simp only [reduceCtorEq, found, Prod.mk.injEq, false_iff, not_and]
      exact fun _ => wrong

theorem scan_eq_error {source : String} {faults : List Diagnostic} :
    scan source = .error faults ↔ (scanFrom 0 source.toList).2 = faults ∧ faults ≠ [] := by
  unfold scan
  split
  · next found =>
      simp only [reduceCtorEq, found, false_iff, not_and, ne_eq, Classical.not_not]
      exact Eq.symm
  · next tokens wrongs wrong found =>
      rw [found, Except.error.injEq]
      exact ⟨fun same => ⟨same, same ▸ wrong⟩, And.left⟩

/-- What is found in a stretch up to the end is found in it alone, at the beginning of a text. -/
theorem Scans.exists_alone (scans : Scans position chars tokens [] stop []) :
    ∃ found, scan (String.ofList chars) = .ok found ∧
      found.map (Token.shift position) = tokens ++ [ending stop] := by
  have moved := scanFrom_shift 0 position chars
  rw [Nat.zero_add, scans.scanFrom_end] at moved
  obtain ⟨same, clean⟩ := Prod.mk.inj moved
  refine ⟨(scanFrom 0 chars).1, scan_eq_ok.mpr ?_, same.symm⟩
  rw [String.toList_ofList, ← List.map_eq_nil_iff.mp clean.symm]

end Token

end DataClass
