import DataClass.Proofs.Grammar.Pointing.Syntax
import DataClass.Proofs.Program.Placed
import DataClass.Proofs.Token.Pointing
namespace DataClass

/-! What is wrong with a program, and the parts of one with which nothing is wrong, stand on tokens of the
text, and so their ranges point into it. -/

variable {source : String} {tokens : List Token} {program : Program}

theorem Token.Spans.pointsInto {first stop : Nat} {span : Span} (spans : Token.Spans tokens first stop span)
    (scanned : Token.scan source = .ok tokens) : span.PointsInto source := by
  obtain ⟨opening, found, begins⟩ := Option.map_eq_some_iff.mp spans.start
  obtain ⟨closing, found', ends⟩ := Option.map_eq_some_iff.mp spans.stop
  have front := Token.pointsInto_of_scan scanned opening (List.mem_of_getElem? found)
  have back := Token.pointsInto_of_scan scanned closing (List.mem_of_getElem? found')
  exact ⟨spans.forward (Token.ordered_of_scan scanned).1, ends ▸ back.within, begins ▸ front.begins,
    ends ▸ back.ends⟩

namespace Extent

/-- The part stands on some of the tokens. -/
def StandsOn (tokens : List Token) (extent : Extent) : Prop := ∃ first stop, extent.Laid tokens first stop

theorem StandsOn.pointsInto {extent : Extent} (stands : extent.StandsOn tokens)
    (scanned : Token.scan source = .ok tokens) : extent.span.PointsInto source := by
  obtain ⟨first, stop, laid⟩ := stands
  exact laid.spans.pointsInto scanned

theorem LaidAll.standsOn {first stop : Nat} {extent : Extent} {extents : List Extent}
    (laid : LaidAll tokens first stop extents) (among : extent ∈ extents) : extent.StandsOn tokens := by
  obtain ⟨start, finish, _, here, _⟩ := laid.exists_laid extent among
  exact ⟨start, finish, here⟩

end Extent

namespace Program

open Grammar

/-- What is reported about a text without lexical faults is about its tokens, and in their order. -/
theorem spans_of_ofTokens_error (scanned : Token.scan source = .ok tokens) {faults : List Diagnostic}
    (read : ofTokens tokens = .error faults) :
    (∀ fault ∈ faults, ∃ first stop, Token.Spans tokens first stop fault.span) ∧
      faults.Pairwise fun fault next => fault.span.start ≤ next.span.start := by
  have ended := ended_of_scan scanned
  have start : Cursor.Marked tokens 0 0 (.ofTokens tokens) :=
    ⟨⟨rfl, rfl, Nat.zero_le _⟩, ended, Nat.le_refl _, nofun, .nil⟩
  have known := Reader.points_declarations (Token.ordered_of_scan scanned).1 0 0 _ start
  obtain ⟨values, next, goes⟩ := exists_declarations ended
  rw [ofTokens_eq goes] at read
  rw [goes] at known
  split at read
  · cases read
  · cases read
    cases known with
    | value _ marked =>
        refine ⟨fun fault among => ?_, List.pairwise_reverse.mpr marked.rising⟩
        obtain ⟨first, stop, _, _, spans⟩ := marked.faults fault (List.mem_reverse.mp among)
        exact ⟨first, stop, spans⟩

theorem standsOn_of_ofTokens (scanned : Token.scan source = .ok tokens)
    (read : ofTokens tokens = .ok program) :
    ∀ decl ∈ program.declarations, decl.extent.StandsOn tokens := by
  intro decl among
  have ordered := (Token.ordered_of_scan scanned).1
  obtain ⟨visible, scans, rfl⟩ := Token.exists_scans_of_scan scanned
  have more : ∀ token ∈ visible, token.kind ≠ .endOfFile :=
    fun token among => ((scans.tiles [] rfl).1 token among).found
  have laid := @laidAll_of_declares [] _ _ _ (declares_of_ofTokens more rfl read) ordered
  exact laid.standsOn (List.mem_map_of_mem among)

end Program

end DataClass
