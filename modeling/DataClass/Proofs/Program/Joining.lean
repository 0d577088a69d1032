import DataClass.Proofs.Grammar.Declared
import DataClass.Proofs.Layout.RoundTrip
import DataClass.Proofs.Token.Joining
import DataClass.Proofs.Token.Scanned
namespace DataClass

/-! Programs with the end of a line between them. What has been read of the first one stays, and the
second one is read as it is read alone, its faults included. -/

namespace Program

open Grammar

variable {tokens front : List Token} {decls : List Declaration} {program : Program}

theorem ofTokens_eq {values : List Declaration} {next : Cursor}
    (read : Reader.declarations (.ofTokens tokens) = .value values next) :
    ofTokens tokens = if next.reported = [] then .ok ⟨values⟩ else .error next.reported.reverse := by
  obtain ⟨previous, rest, reported⟩ := next
  unfold ofTokens
  rw [read]
  cases reported <;> rfl

/-- Reading declarations never fails. -/
theorem exists_declarations (ended : Token.Ended tokens) :
    ∃ values next, Reader.declarations (.ofTokens tokens) = .value values next := by
  obtain ⟨values, next, _, read, _⟩ :=
    @Reader.parts_elsewhere (.ofTokens tokens) _ _ ended (Nat.le_refl _) (Nat.le_refl _) none
  exact ⟨values, next, read⟩

theorem declares_of_ofTokens {last : Token} (more : ∀ token ∈ front, token.kind ≠ .endOfFile)
    (ended : last.kind = .endOfFile) (read : ofTokens (front ++ [last]) = .ok program) :
    Declares front program.declarations := by
  obtain ⟨values, next, goes⟩ := @exists_declarations (front ++ [last]) ⟨last, by simp, ended⟩
  rw [ofTokens_eq goes] at read
  split at read
  · next quiet =>
      cases read
      exact @Reader.declares_of_parts (.ofTokens (front ++ [last])) _ _ _ _ _ rfl more ended (Nat.le_refl _)
        goes quiet
  · cases read

/-- The tokens of a text that has more in front are read as the tokens of the text alone, and all ranges
are shifted. -/
theorem ofTokens_shift (ended : Token.Ended tokens) (offset : Nat) :
    ofTokens (tokens.map (Token.shift offset)) =
      match ofTokens tokens with
      | .ok program => .ok (program.shift offset)
      | .error faults => .error (faults.map (·.shift offset)) := by
  have shifts : Reader.Shifts offset (List.map (Declaration.mapSpans (Span.shift offset)))
      Reader.declarations Reader.declarations :=
    Reader.shifts_remaining.andThen fun _ => Reader.shifts_parts _ Reader.shifts_declaration _
  rcases shifts (.ofTokens tokens) ended with ⟨values, next, _, here, there⟩ | ⟨fault, next, _, here, _⟩
  · have there : Reader.declarations (.ofTokens (tokens.map (Token.shift offset))) = _ := there
    rw [ofTokens_eq here, ofTokens_eq there]
    obtain ⟨previous, rest, reported⟩ := next
    cases reported with
    | nil => rfl
    | cons fault faults => simp [Cursor.shift]
  · obtain ⟨_, _, read⟩ := exists_declarations ended
    cases here.symm.trans read

/-- Behind tokens that have been read as declarations, other tokens are read as they are read alone. -/
theorem ofTokens_joined (declares : Declares front decls) (ended : Token.Ended tokens) :
    ofTokens (front ++ tokens) =
      match ofTokens tokens with
      | .ok later => .ok ⟨decls ++ later.declarations⟩
      | .error faults => .error faults := by
  obtain ⟨place, turns, enough, goes⟩ :=
    @Reader.parts_of_declares (.ofTokens (front ++ tokens)) _ _ _ _ declares rfl (Nat.le_refl _)
  obtain ⟨values, next, stop, alone, behind⟩ :=
    @Reader.parts_elsewhere (.ofTokens tokens) _ turns ended (Nat.le_refl _) enough place
  have behind : Reader.parts .declarations Reader.declaration turns ⟨place, tokens, []⟩ = _ := behind
  have read : Reader.declarations (.ofTokens tokens) = .value values next := alone
  have joined : Reader.declarations (.ofTokens (front ++ tokens)) =
      .value (decls ++ values) (next.behind stop) :=
    goes.trans (Reader.bind_value behind)
  rw [ofTokens_eq read, ofTokens_eq joined]
  obtain ⟨previous, rest, reported⟩ := next
  cases reported <;> rfl

theorem ended_of_scan {source : String} (scanned : Token.scan source = .ok tokens) :
    Token.Ended tokens := by
  obtain ⟨found, last, rfl, ends, _⟩ := Token.exists_front_of_scan scanned
  exact ⟨last, by simp, ends⟩

theorem ofSource_of_ok {source : String} (scanned : Token.scan source = .ok tokens) :
    ofSource source = ofTokens tokens := by
  rw [ofSource, scanned]
  rfl

theorem ofSource_of_error {source : String} {faults : List Diagnostic}
    (scanned : Token.scan source = .error faults) : ofSource source = .error faults := by
  rw [ofSource, scanned]
  rfl

/-- Behind a program and the end of its last line any text is read as it is read alone. All that the
program does to what is read, and to what is reported, is to shift it. -/
theorem ofSource_joined {first : String} (read : ofSource first = .ok program) (second : String) :
    ofSource (first ++ "\n" ++ second) =
      match ofSource second with
      | .ok later =>
          .ok ⟨program.declarations ++ (later.shift (byteCount first.toList + 1)).declarations⟩
      | .error faults => .error (faults.map (·.shift (byteCount first.toList + 1))) := by
  cases scanned : Token.scan first with
  | error faults =>
      rw [ofSource_of_error scanned] at read
      cases read
  | ok tokens =>
      rw [ofSource_of_ok scanned] at read
      have whole := Token.scan_eq_ok.mp scanned
      obtain ⟨visible, all, joined⟩ := Token.scanFrom_joined (by rw [whole]; nofun) second.toList
      rw [whole] at all joined
      rw [← Token.toList_joined] at joined
      -- the first text alone has been read as declarations
      obtain ⟨found, last, split, _, inside⟩ := Token.exists_front_of_scan scanned
      obtain ⟨rfl, _⟩ := List.append_inj' (split.symm.trans all) rfl
      obtain rfl : tokens = found ++ [Token.ending (byteCount first.toList)] := all
      have declares := declares_of_ofTokens (fun token here => (inside token here).2) rfl read
      cases behind : Token.scan second with
      | error faults =>
          obtain ⟨wrong, some⟩ := Token.scan_eq_error.mp behind
          rw [ofSource_of_error behind]
          refine ofSource_of_error (Token.scan_eq_error.mpr ⟨?_, by simpa using some⟩)
          rw [joined, wrong]
          rfl
      | ok later =>
          have there := Token.scan_eq_ok.mp behind
          rw [there] at joined
          have ended := ended_of_scan behind
          rw [ofSource_of_ok (Token.scan_eq_ok.mpr joined), ofSource_of_ok behind,
            ofTokens_joined declares (ended.shift _), ofTokens_shift ended]
          cases ofTokens later <;> rfl

/-- A parenthesis on the line behind an import is reported where it is. -/
theorem ofSource_joined_import :
    (∃ program, ofSource "import a;" = .ok program) ∧
      ofSource ("import a;" ++ "\n" ++ ")") = .error
        [.syntaxFault "Expected declaration ('class', 'fn' or 'import'), found ')'" ⟨10, 11⟩] := by
  obtain ⟨program, read, _⟩ : ∃ program, ofSource "import a;" = .ok program ∧
      (program.declarations.length == 1) = true := exists_read _ (by decide +kernel)
  have scanned : Token.scan ")" = .ok [⟨.punctuation .rightParen, ⟨0, 1⟩⟩, ⟨.endOfFile, ⟨1, 1⟩⟩] := by
    decide +kernel
  have alone : ofSource ")" = .error
      [.syntaxFault "Expected declaration ('class', 'fn' or 'import'), found ')'" ⟨0, 1⟩] :=
    (ofSource_of_ok scanned).trans rfl
  refine ⟨⟨program, read⟩, ?_⟩
  rw [ofSource_joined read, alone]
  rfl

end Program

end DataClass
