import DataClass.Proofs.Grammar.Cutting.Declaration
import DataClass.Proofs.Program.Joining
import DataClass.Proofs.Token.Tiling
namespace DataClass

/-! Texts that have been cut. The tokens in front of the cut are found as before, and what is reported is
missing at the end: a closing brace for each body that is open there, and the rest of a part that has
been begun. -/

theorem append_inj_of_byteCount {first second rest other : List Char}
    (same : first ++ rest = second ++ other) (counts : byteCount first = byteCount second) :
    first = second := by
  have empty (chars : List Char) (none : byteCount chars = 0) : chars = [] := by
    cases chars with
    | nil => rfl
    | cons char chars =>
        rw [byteCount_cons] at none
        have := char.utf8Size_pos
        omega
  rcases List.append_eq_append_iff.mp same with ⟨more, rfl, _⟩ | ⟨more, rfl, _⟩
  · rw [byteCount_append] at counts
    rw [empty more (by omega), List.append_nil]
  · rw [byteCount_append] at counts
    rw [empty more (by omega), List.append_nil]

namespace Token

/-- Behind a token of a text there are others, the last of which marks the end. -/
theorem exists_behind {visible front back : List Token} {token : Token} {stop : Nat}
    (split : front ++ token :: back = visible ++ [ending stop]) (more : token.kind ≠ .endOfFile) :
    ∃ behind, back = behind ++ [ending stop] ∧ visible = front ++ [token] ++ behind := by
  rcases List.eq_nil_or_concat back with rfl | ⟨behind, last, rfl⟩
  · obtain ⟨_, same⟩ := List.append_inj' split rfl
    obtain rfl := List.singleton_inj.mp same
    exact absurd rfl more
  · rw [List.concat_eq_append, ← List.cons_append, ← List.append_assoc] at split
    obtain ⟨whole, same⟩ := List.append_inj' split rfl
    obtain rfl := List.singleton_inj.mp same
    exact ⟨behind, List.concat_eq_append, by simp [← whole]⟩

/-- Up to the end of one of its tokens a text is cut into the same tokens. -/
theorem scan_of_cut {source text rest : String} {front back : List Token} {token : Token}
    (scanned : scan source = .ok (front ++ token :: back)) (more : token.kind ≠ .endOfFile)
    (cut : source = text ++ rest) (place : byteCount text.toList = token.span.stop) :
    scan text = .ok (front ++ [token] ++ [ending token.span.stop]) := by
  obtain ⟨visible, scans, split⟩ := exists_scans_of_scan scanned
  obtain ⟨behind, _, rfl⟩ := exists_behind split more
  obtain ⟨middle, between, faults, later, here, _, clean, ends⟩ := scans.split
  obtain ⟨rfl, rfl⟩ := List.append_eq_nil_iff.mp clean.symm
  obtain ⟨taken, whole, stops, alone⟩ := here.transfer nofun (show Alike _ [] from Breaks.alike nofun)
  obtain rfl : middle = token.span.stop := by simpa using ends
  obtain rfl : taken = text.toList := by
    rw [cut, String.toList_append] at whole
    exact append_inj_of_byteCount whole.symm (by rw [place, stops, Nat.zero_add])
  rw [List.append_nil] at alone
  exact scan_eq_ok.mpr alone.scanFrom_end

end Token

namespace Program

open Grammar

/-- The tokens of a program up to a cut. What is reported is what is missing behind them. -/
theorem ofTokens_cut {front back : List Token} {program : Program} {finish : Nat} (stop : Nat)
    (read : ofTokens (front ++ back ++ [.ending finish]) = .ok program)
    (inside : ∀ token ∈ front ++ back, token.kind ≠ .endOfFile) :
    ∃ faults, (faults.length : Int) = owed false front ∧ (∀ fault ∈ faults, MissingAtEnd stop fault) ∧
      (faults = [] → ∃ shorter, ofTokens (front ++ [.ending stop]) = .ok shorter) ∧
      (faults ≠ [] → ofTokens (front ++ [.ending stop]) = .error faults) := by
  have declares := declares_of_ofTokens inside rfl read
  obtain ⟨place, turns, _, goes⟩ := @Reader.parts_of_declares
    ⟨some .origin, front ++ back ++ [.ending finish], []⟩ _ [.ending finish] _ _ declares rfl
    (Nat.le_refl _)
  rw [Reader.bind_value (Reader.parts_at_end ..)] at goes
  have below : Reader.CutsBelow stop (back ++ [.ending finish]) true false True
      ((front ++ back ++ [Token.ending finish]).length + 1) Reader.declaration Reader.declaration :=
    ⟨fun _ _ => Reader.cuts_declaration, Reader.halts_declaration⟩
  obtain ⟨values, last, faults, cut, missing, paid⟩ := Reader.lacks_parts below (Nat.lt_succ_self _)
    (Cursor.enough_remaining (List.append_assoc ..)) rfl (List.append_assoc ..) goes rfl (by simp) []
  -- nothing depends on the place in front of the first token
  have ended : Token.Ended (front ++ [.ending stop]) := ⟨.ending stop, by simp, rfl⟩
  obtain ⟨values', next, stop', here, there⟩ := @Reader.parts_elsewhere
    (.ofTokens (front ++ [Token.ending stop])) _ _ ended (Nat.le_refl _) (Nat.le_refl _) (some .origin)
  obtain ⟨-, same⟩ := Outcome.value.inj (there.symm.trans cut)
  have reported : next.reported = faults := by
    simpa [Cursor.behind] using congrArg Cursor.reported same
  have whole := ofTokens_eq here
  rw [reported] at whole
  refine ⟨faults.reverse, by rw [List.length_reverse, paid], by simpa using missing, ?_, ?_⟩
  · intro none
    exact ⟨_, whole.trans (if_pos (List.reverse_eq_nil_iff.mp none))⟩
  · intro some
    exact whole.trans (if_neg (mt List.reverse_eq_nil_iff.mpr some))

/-- A program that is cut behind one of its tokens. As many things are missing as there are open bodies
and, unless the token ends a part or a body or begins one, there is one that is not complete. Where
nothing is missing what is left can be read. Elsewhere each of these things is reported, at the end. -/
theorem ofSource_cut {source text rest : String} {program : Program} {front back : List Token}
    {token : Token} (read : ofSource source = .ok program)
    (scanned : Token.scan source = .ok (front ++ token :: back)) (more : token.kind ≠ .endOfFile)
    (cut : source = text ++ rest) (place : byteCount text.toList = token.span.stop) :
    ∃ faults, (faults.length : Int) = openBodies (front ++ [token]) + (!token.kind.isSeam).toNat ∧
      (∀ fault ∈ faults, MissingAtEnd token.span.stop fault) ∧
      (faults = [] → ∃ shorter, ofSource text = .ok shorter) ∧
      (faults ≠ [] → ofSource text = .error faults) := by
  rw [ofSource_of_ok scanned] at read
  rw [ofSource_of_ok (Token.scan_of_cut scanned more cut place)]
  obtain ⟨visible, split, inside, _⟩ := Token.scan_tiles scanned
  obtain ⟨behind, rfl, rfl⟩ := Token.exists_behind split more
  rw [split] at read
  have missing := ofTokens_cut token.span.stop read fun token among => (inside token among).1
  rwa [owed_concat] at missing

/-- Two bodies are open behind the brace that opens the inner one. -/
theorem ofSource_cut_class : ∃ faults, ofSource "class A \x7b fn f() \x7b" = .error faults ∧
    faults.length = 2 ∧ ∀ fault ∈ faults, MissingAtEnd 18 fault := by
  obtain ⟨program, read, _⟩ : ∃ program, ofSource "class A \x7b fn f() \x7b \x7d \x7d" = .ok program ∧
      (program.declarations.length == 1) = true := exists_read _ (by decide +kernel)
  have scanned : Token.scan "class A \x7b fn f() \x7b \x7d \x7d" = .ok
      ([⟨.keyword .classWord, ⟨0, 5⟩⟩, ⟨.identifier "A", ⟨6, 7⟩⟩, ⟨.punctuation .leftBrace, ⟨8, 9⟩⟩,
        ⟨.keyword .fnWord, ⟨10, 12⟩⟩, ⟨.identifier "f", ⟨13, 14⟩⟩, ⟨.punctuation .leftParen, ⟨14, 15⟩⟩,
        ⟨.punctuation .rightParen, ⟨15, 16⟩⟩] ++ ⟨.punctuation .leftBrace, ⟨17, 18⟩⟩ ::
        [⟨.punctuation .rightBrace, ⟨19, 20⟩⟩, ⟨.punctuation .rightBrace, ⟨21, 22⟩⟩,
          ⟨.endOfFile, ⟨22, 22⟩⟩]) := by
    decide +kernel
  obtain ⟨faults, counted, missing, _, reports⟩ :=
    @ofSource_cut _ "class A \x7b fn f() \x7b" " \x7d \x7d" _ _ _ _ read scanned (by decide) rfl rfl
  have two : faults.length = 2 := Int.ofNat_inj.mp counted
  refine ⟨faults, reports ?_, two, missing⟩
  rintro rfl
  cases two

end Program

end DataClass
