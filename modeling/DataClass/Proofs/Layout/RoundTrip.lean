import DataClass.Proofs.Grammar.Completeness.Declaration
import DataClass.Proofs.Grammar.Soundness.Declaration
import DataClass.Proofs.Layout.Program
import DataClass.Proofs.Layout.Spelled.Shape
import DataClass.Proofs.Layout.Spelled.Text
import DataClass.Proofs.Layout.Writable
import DataClass.Proofs.Token.Scanned
namespace DataClass

/-! Writing a program and reading it again. -/

open Token TokenKind Layout

namespace TokenKind

/-- No infinite number. Infinity has no literal of its own, so it is written as a name. -/
def isFinite : TokenKind → Bool
  | .float value => value.isFinite
  | _ => true

theorem written_of_isFinite {kind : TokenKind} (finite : kind.isFinite = true) :
    kind.written = kind := by
  cases kind with
  | float value => exact if_pos finite
  | _ => rfl

end TokenKind

namespace Program

/-- Whether all numbers of a program are finite. -/
def isFinite (program : Program) : Bool := program.kinds.all TokenKind.isFinite

theorem map_written_of_isFinite {program : Program} (finite : program.isFinite = true) :
    program.kinds.map written = program.kinds := by
  have kept (kind : TokenKind) (inside : kind ∈ program.kinds) : kind.written = kind :=
    written_of_isFinite (List.all_eq_true.mp finite kind inside)
  rw [List.map_congr_left kept, List.map_id']

theorem exists_read (check : Program → Bool) {source : String}
    (passed : ((ofSource source).map check).toOption = some true) :
    ∃ program, ofSource source = .ok program ∧ check program = true := by
  cases read : ofSource source with
  | error faults => simp [read, Except.map, Except.toOption] at passed
  | ok program => exact ⟨program, rfl, by simpa [read, Except.map, Except.toOption] using passed⟩

theorem exists_read_ofList (check : Program → Bool) {chars : List Char}
    (scanned : (scanFrom 0 chars).2 = [])
    (passed : ((ofTokens (scanFrom 0 chars).1).map check).toOption = some true) :
    ∃ program, ofSource (.ofList chars) = .ok program ∧ check program = true := by
  have tokens : scan (.ofList chars) = .ok (scanFrom 0 chars).1 := by
    rw [scan, String.toList_ofList]
    split <;> simp_all
  apply exists_read check
  rw [ofSource, tokens]
  exact passed

/-- What has been read can be written. -/
theorem writable_of_ofSource {source : String} {program : Program}
    (read : ofSource source = .ok program) : program.Writable := by
  unfold ofSource at read
  cases scanned : scan source with
  | error faults => simp [scanned, bind, Except.bind] at read
  | ok tokens =>
      simp only [scanned, bind, Except.bind] at read
      obtain ⟨shaped, taken, rest, front, kept⟩ := ofTokens_sound read
      refine ⟨shaped, fun kind inside => ?_⟩
      have listed : kind ∈ tokens.map Token.kind := by
        rw [front]
        exact List.mem_append_left _ (kept.sublist.subset inside)
      obtain ⟨token, member, rfl⟩ := List.mem_map.mp listed
      exact isLexical_scan scanned token member

/-- The written form of a program is read as any program with the written tokens. -/
theorem ofSource_of_kinds {program other : Program} (writable : program.Writable)
    (shaped : other.Shaped) (kinds : other.kinds = program.kinds.map written) (style : Style) :
    ∃ again, ofSource (program.text style) = .ok again ∧ again.erase = other.erase := by
  obtain ⟨tokens, scanned, same⟩ := scan_of_spells (text_spells writable.lexical style)
  rw [← kinds] at same
  obtain ⟨again, read, equal⟩ := ofTokens_of_kinds shaped same
  exact ⟨again, by simp [ofSource, scanned, read, bind, Except.bind], equal⟩

/-- Every program that can be written is read back, with names for its infinite numbers. -/
theorem ofSource_text_spelled {program : Program} (writable : program.Writable) (style : Style) :
    ∃ again, ofSource (program.text style) = .ok again ∧ again.erase = program.spelled.erase :=
  ofSource_of_kinds writable writable.shaped.spelled program.kinds_spelled style

/-- What is read back is written in the same way, in every style. -/
theorem text_of_erase {program again : Program} (writable : program.Writable)
    (readable : again.Writable) (same : again.erase = program.spelled.erase) (style : Style) :
    again.text style = program.text style := by
  have lexical : Lexical program.spelled.kinds := by
    rw [kinds_spelled]
    exact List.forall_mem_map.mpr fun kind inside => written_isLexical (writable.lexical kind inside)
  calc again.text style = again.spelled.text style := (text_spelled readable.lexical style).symm
    _ = program.spelled.spelled.text style := by
      rw [← again.spelled_erase, same, program.spelled.spelled_erase]
    _ = program.spelled.text style := text_spelled lexical style
    _ = program.text style := text_spelled writable.lexical style

/-- Writing loses nothing of a program. Whatever text a program without infinite numbers has been
read from, and whatever style it is written in, it is read back as the same program up to places. -/
theorem ofSource_text {source : String} {program : Program} (read : ofSource source = .ok program)
    (finite : program.isFinite = true) (style : Style) :
    ∃ again, ofSource (program.text style) = .ok again ∧ again.erase = program.erase := by
  have writable := writable_of_ofSource read
  exact ofSource_of_kinds writable writable.shaped (map_written_of_isFinite finite).symm style

theorem ofSource_text_class :
    ∃ program, ofSource "class A\x7bx:Float=1.5;fn f():void\x7bif x<-2\x7bx=x-2*(x-1);\x7d\x7d\x7d" =
        .ok program ∧ program.isFinite = true ∧
      ∃ again, ofSource (program.text .standard) = .ok again ∧ again.erase = program.erase := by
  obtain ⟨program, read, finite⟩ : ∃ program,
      ofSource "class A\x7bx:Float=1.5;fn f():void\x7bif x<-2\x7bx=x-2*(x-1);\x7d\x7d\x7d" =
        .ok program ∧ program.isFinite = true := exists_read isFinite (by decide +kernel)
  exact ⟨program, read, finite, ofSource_text read finite .standard⟩

end Program

end DataClass
