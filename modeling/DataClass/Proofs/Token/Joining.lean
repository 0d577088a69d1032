import DataClass.Proofs.Token.Stretch
namespace DataClass

namespace Token

/-! Two texts with the end of a line between them. The scanner goes through the first one as if nothing
were behind it, and meets the second one as if nothing were in front of it. -/

/-- All that is wrong with a text. -/
def faultsOf (source : String) : List Diagnostic :=
  match scan source with
  | .ok _ => []
  | .error faults => faults

theorem faultsOf_eq (source : String) : faultsOf source = (scanFrom 0 source.toList).2 := by
  unfold faultsOf scan
  split
  · next read =>
      split at read
      · next found => rw [found]
      · cases read
  · next read =>
      split at read
      · cases read
      · next found =>
          cases read
          rw [found]

/-- If all that begins in the first text also ends there, the tokens and the faults of the two texts
are put one behind the other. -/
theorem scanFrom_joined {first : List Char}
    (ended : ∀ fault ∈ (scanFrom 0 first).2, ¬Unterminated fault) (second : List Char) :
    ∃ visible, (scanFrom 0 first).1 = visible ++ [ending (byteCount first)] ∧
      scanFrom 0 (first ++ '\n' :: second) =
        (visible ++ (scanFrom 0 second).1.map (Token.shift (byteCount first + 1)),
          (scanFrom 0 first).2 ++
            (scanFrom 0 second).2.map (·.shift (byteCount first + 1))) := by
  obtain ⟨visible, faults, stop, scans⟩ := exists_scans 0 first
  have breaks : Breaks ('\n' :: second) := by
    rintro char ⟨⟩
    rfl
  rw [scans.scanFrom_end] at ended
  obtain ⟨taken, whole, stops, joined⟩ := scans.transfer ended breaks.alike
  rw [List.append_nil] at whole
  rw [Nat.zero_add, ← whole] at stops
  subst stops whole
  have line : scanFrom (byteCount first) ('\n' :: second) = scanFrom (byteCount first + 1) second := by
    rw [scanFrom]
    rfl
  have moved := scanFrom_shift 0 (byteCount first + 1) second
  rw [Nat.zero_add] at moved
  exact ⟨visible, by rw [scans.scanFrom_end], by rw [joined.scanFrom_eq, line, moved, scans.scanFrom_end]⟩

theorem toList_joined (first second : String) :
    (first ++ "\n" ++ second).toList = first.toList ++ '\n' :: second.toList := by
  rw [String.toList_append, String.toList_append, List.append_assoc]
  rfl

/-- Whatever is wrong with a text, short of a string or a comment without an end, neither hides nor
adds nor moves anything on the lines behind it. -/
theorem scan_joined {first : String} (ended : ∀ fault ∈ faultsOf first, ¬Unterminated fault)
    (second : String) :
    faultsOf (first ++ "\n" ++ second) =
        faultsOf first ++ (faultsOf second).map (·.shift (byteCount first.toList + 1)) ∧
      ∀ tokens later, scan first = .ok tokens → scan second = .ok later →
        ∃ visible, tokens = visible ++ [ending (byteCount first.toList)] ∧
          scan (first ++ "\n" ++ second) =
            .ok (visible ++ later.map (Token.shift (byteCount first.toList + 1))) := by
  rw [faultsOf_eq] at ended
  obtain ⟨visible, all, joined⟩ := scanFrom_joined ended second.toList
  rw [← toList_joined] at joined
  refine ⟨by rw [faultsOf_eq, faultsOf_eq, faultsOf_eq, joined], fun tokens later read behind => ?_⟩
  rw [scan_eq_ok] at read behind
  rw [read] at all joined
  rw [behind] at joined
  exact ⟨visible, all, scan_eq_ok.mpr joined⟩

theorem scan_joined_badCharacter :
    (∀ fault ∈ faultsOf "a ? '\\q'", ¬Unterminated fault) ∧
      faultsOf ("a ? '\\q'" ++ "\n" ++ "#") =
        [unexpectedCharacter '?' ⟨2, 3⟩, unknownEscape 'q' ⟨5, 7⟩, unexpectedCharacter '#' ⟨9, 10⟩] := by
  have first : faultsOf "a ? '\\q'" = [unexpectedCharacter '?' ⟨2, 3⟩, unknownEscape 'q' ⟨5, 7⟩] := by
    decide +kernel
  have second : faultsOf "#" = [unexpectedCharacter '#' ⟨0, 1⟩] := by decide +kernel
  have ended : ∀ fault ∈ faultsOf "a ? '\\q'", ¬Unterminated fault := by
    rw [first]
    rintro fault inside ⟨span, rfl | rfl⟩ <;>
      simp [unexpectedCharacter, unknownEscape, unterminatedString, unterminatedComment,
        Diagnostic.syntaxFault, Diagnostic.withHint] at inside
  refine ⟨ended, ?_⟩
  rw [(scan_joined ended "#").1, first, second]
  rfl

end Token

end DataClass
