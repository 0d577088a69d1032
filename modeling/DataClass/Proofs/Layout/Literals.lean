import DataClass.Proofs.Layout.Reformatting
import DataClass.Proofs.Program.Literals
namespace DataClass

/-! Literals in a text that is written. Each is written as one token, and is read back as the literal it
is, unless it is an infinite number. There is no literal for infinity: its text is a name. -/

open Token TokenKind Layout

namespace TokenKind

/-- What is written is read back as it is just if it is finite. -/
theorem written_eq_iff {kind : TokenKind} : kind.written = kind ↔ kind.isFinite = true := by
  refine ⟨fun same => ?_, written_of_isFinite⟩
  by_contra infinite
  rw [written_of_infinite (eq_false_of_ne_true infinite)] at same
  exact infinite (same ▸ rfl)

end TokenKind

namespace Expr

theorem scan_of_literal {expr : Expr} {kind : TokenKind} (writable : expr.Writable)
    (literal : expr.literal? = some kind) (quote : Quote) :
    ∃ token last, scan (exprText quote expr) = .ok [token, last] ∧ token.kind = kind.written ∧
      last.kind = .endOfFile := by
  have parted : Parted [] := ⟨nofun, nofun, rfl⟩
  have spelled := expr.fragment_text quote writable.lexical [] [.endOfFile] parted spells_nil
  rw [List.append_nil, kinds_of_literal literal] at spelled
  obtain ⟨tokens, scanned, same⟩ := scan_of_spells spelled
  obtain ⟨token, behind, rfl, here, later⟩ := List.map_eq_cons_iff.mp same
  obtain ⟨last, rfl, ended⟩ := List.map_eq_singleton_iff.mp later
  exact ⟨token, last, scanned, here, ended⟩

end Expr

namespace Program

theorem literals_text {program : Program} (writable : program.Writable) (style : Style) :
    ∃ tokens, scan (program.text style) = .ok tokens ∧
      literals (tokens.map Token.kind) =
        (program.exprs.filterMap Expr.literal?).filter TokenKind.isFinite := by
  obtain ⟨tokens, scanned, same⟩ := scan_of_spells (text_spells writable.lexical style)
  refine ⟨tokens, scanned, ?_⟩
  rw [same, literals_append, literals_map_written, literals_kinds]
  exact List.append_nil _

/-- Literals survive, all but the infinite numbers. The text of a literal that has been read is one
token, in either style of quotes. If the literal is finite, the token is that literal; if not, it is the
name `inf`. So the literals of a text that is written again are, in their order, those of the program
without the infinite ones. -/
theorem scan_literal_iff_finite {source : String} {program : Program}
    (read : ofSource source = .ok program) :
    (∀ expr ∈ program.exprs, ∀ kind, expr.literal? = some kind → ∀ quote,
      ∃ token last, scan (exprText quote expr) = .ok [token, last] ∧ last.kind = .endOfFile ∧
        (token.kind = kind ↔ kind.isFinite = true) ∧
        (kind.isFinite = false → token.kind = .identifier "inf")) ∧
    ∀ style, ∃ tokens, scan (program.text style) = .ok tokens ∧
      literals (tokens.map Token.kind) =
        (program.exprs.filterMap Expr.literal?).filter TokenKind.isFinite := by
  have writable := writable_of_ofSource read
  refine ⟨fun expr listed kind literal quote => ?_, literals_text writable⟩
  obtain ⟨token, last, scanned, same, ended⟩ :=
    Expr.scan_of_literal (writable.exprs expr listed) literal quote
  refine ⟨token, last, scanned, ended, ?_, fun infinite => ?_⟩
  · rw [same, written_eq_iff]
  · rw [same, written_of_infinite infinite]

theorem scan_literal_of_quotes : ∃ program, ofSource (.ofList quotesText) = .ok program ∧
    program.exprs.filterMap Expr.literal? = [.string "\"'\\\t\x00", .float ⟨0x7ff0000000000000⟩] ∧
    (∃ token last, scan (stringText .single "\"'\\\t\x00") = .ok [token, last] ∧
      token.kind = .string "\"'\\\t\x00") ∧
    ∃ token last, scan (.ofList (Binary64.mk 0x7ff0000000000000).pointedText) = .ok [token, last] ∧
      token.kind = .identifier "inf" := by
  let pair : List TokenKind := [.string "\"'\\\t\x00", .float ⟨0x7ff0000000000000⟩]
  obtain ⟨program, read, passed⟩ : ∃ program, ofSource (.ofList quotesText) = .ok program ∧
      decide (program.exprs.filterMap Expr.literal? = pair) = true :=
    exists_read_ofList _ (by decide +kernel) (by decide +kernel)
  obtain ⟨survives, _⟩ := scan_literal_iff_finite read
  have both := of_decide_eq_true passed
  have literal {kind : TokenKind} (inside : kind ∈ pair) :
      ∃ expr ∈ program.exprs, expr.literal? = some kind :=
    List.mem_filterMap.mp (both ▸ inside)
  obtain ⟨text, listed, found⟩ := literal List.mem_cons_self
  obtain ⟨number, listed', found'⟩ := literal (List.mem_cons_of_mem _ List.mem_cons_self)
  obtain ⟨token, last, scanned, _, same, _⟩ := survives text listed _ found .single
  obtain ⟨token', last', scanned', _, _, name⟩ := survives number listed' _ found' .single
  cases text <;> cases found
  cases number <;> cases found'
  exact ⟨program, read, both, ⟨token, last, scanned, same.mpr rfl⟩, token', last', scanned',
    name (by decide)⟩

end Program

end DataClass
