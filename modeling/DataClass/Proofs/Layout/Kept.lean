import DataClass.Proofs.Grammar.Paring
import DataClass.Proofs.Grammar.Walk.Program
import DataClass.Proofs.Layout.RoundTrip
namespace DataClass.Program

/-! The tokens of a text, and the tokens of the text that is written once it has been read. -/

open Token TokenKind Layout Grammar

variable {program : Program}

/-- A program is written with the tokens it was read from, all of them but for what is left out. -/
theorem keeps_of_ofTokens {front : List Token} {last : Token}
    (more : ∀ token ∈ front, token.kind ≠ .endOfFile) (ended : last.kind = .endOfFile)
    (read : ofTokens (front ++ [last]) = .ok program) :
    Keeps (front.map Token.kind) program.kinds := by
  obtain ⟨declarations, ⟨position, reported, within⟩, _, reads, reached⟩ :=
    (Course.mk front last [] [] more ended).exists_declarations
  obtain rfl : position = front.length := reached
  rw [ofTokens, reads] at read
  cases reported with
  | cons fault faults => cases read
  | nil =>
      obtain rfl : ⟨declarations⟩ = program := Except.ok.inj read
      obtain ⟨_, taken, cut, _, kept⟩ := Reader.gathers_declarations declarations _ reads rfl
      have all : front.map Token.kind = taken := by
        simpa [Cursor.kinds, Cursor.ofTokens, Course.Spot.cursor] using cut
      exact all ▸ kept

/-- Writing keeps the tokens of a text. Whatever text a program without infinite numbers has been read
from, and whatever style it is written in, the tokens written are those of the text, one for one and in
their order, but for what has a default or means nothing, and of that nothing is left. -/
theorem scan_text {source : String} (read : ofSource source = .ok program)
    (finite : program.isFinite = true) (style : Style) :
    ∃ tokens written, scan source = .ok tokens ∧ scan (program.text style) = .ok written ∧
      Keeps (tokens.map Token.kind) (written.map Token.kind) ∧ Pared (written.map Token.kind) := by
  have writable := writable_of_ofSource read
  obtain ⟨written, scanned, same⟩ := scan_of_spells (text_spells writable.lexical style)
  rw [map_written_of_isFinite finite] at same
  unfold ofSource at read
  cases found : scan source with
  | error faults => simp [found, bind, Except.bind] at read
  | ok tokens =>
      simp only [found, bind, Except.bind] at read
      obtain ⟨front, last, rfl, ended, inside⟩ := exists_front_of_scan found
      have kept := keeps_of_ofTokens (fun token here => (inside token here).2) ended read
      refine ⟨_, written, rfl, scanned, ?_, ?_⟩
      · rw [same, List.map_append, List.map_singleton, ended]
        exact kept.append (.same _)
      · rw [same]
        exact (writable.shaped.settled.append (settled_single rfl)).pared

theorem scan_text_class :
    ∃ program tokens written,
      ofSource "pub import a.b;class A\x7bpub init\x7b\x7dpriv fn f():void\x7bif x\x7b\x7delse\x7bif y\x7b\x7d\x7d\x7d\x7d" =
        .ok program ∧ program.isFinite = true ∧
      scan "pub import a.b;class A\x7bpub init\x7b\x7dpriv fn f():void\x7bif x\x7b\x7delse\x7bif y\x7b\x7d\x7d\x7d\x7d" =
        .ok tokens ∧ scan (program.text .standard) = .ok written ∧
      Keeps (tokens.map Token.kind) (written.map Token.kind) ∧ Pared (written.map Token.kind) := by
  obtain ⟨program, read, finite⟩ : ∃ program,
      ofSource "pub import a.b;class A\x7bpub init\x7b\x7dpriv fn f():void\x7bif x\x7b\x7delse\x7bif y\x7b\x7d\x7d\x7d\x7d" =
        .ok program ∧ program.isFinite = true := exists_read isFinite (by decide +kernel)
  obtain ⟨tokens, written, found, scanned, kept, pared⟩ := scan_text read finite .standard
  exact ⟨program, tokens, written, read, finite, found, scanned, kept, pared⟩

end DataClass.Program
