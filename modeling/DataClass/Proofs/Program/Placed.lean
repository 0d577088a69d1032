import DataClass.Proofs.Grammar.Laying.Syntax
import DataClass.Proofs.Program.Joining
import DataClass.Proofs.Token.Tiling
namespace DataClass

/-! The ranges of a program that has been read: each of them is exactly the range of the tokens that the
part stands for, and the text of a declaration alone is that declaration. -/

theorem Declaration.span_extent (decl : Declaration) : decl.extent.span = decl.span := by
  cases decl <;> rfl

namespace Token

variable {tokens : List Token}

/-- The tokens of a text are one behind the other, the one that marks the end behind all of them. -/
theorem ordered_of_scan {source : String} (read : scan source = .ok tokens) :
    Ordered tokens ∧ ∀ token ∈ tokens, token.span.stop ≤ byteCount source.toList := by
  obtain ⟨visible, scans, rfl⟩ := exists_scans_of_scan read
  obtain ⟨placed, apart, _⟩ := scans.tiles [] rfl
  have within : ∀ token ∈ visible, token.span.stop ≤ byteCount source.toList := by
    intro token among
    obtain ⟨front, piece, back, covers, _⟩ := (placed token among).covers
    have whole : source.toList = front ++ piece ++ back := covers.whole
    rw [covers.stop, whole, byteCount_append, byteCount_append]
    exact Nat.le_add_right ..
  refine ⟨⟨?_, ?_⟩, ?_⟩
  · refine List.forall_mem_append.mpr ⟨fun token among => Nat.le_of_lt (placed token among).filled, ?_⟩
    exact List.forall_mem_singleton.mpr (Nat.le_refl _)
  · refine List.pairwise_append.mpr ⟨apart, List.pairwise_singleton .., fun token among _ last => ?_⟩
    obtain rfl := List.mem_singleton.mp last
    exact within token among
  · exact List.forall_mem_append.mpr ⟨within, List.forall_mem_singleton.mpr (Nat.le_refl _)⟩

end Token

namespace Grammar

variable {before run front after : List Token} {decl : Declaration} {decls : List Declaration}

/-- A declaration stands on its run of tokens, from the first of them to the last. -/
theorem laid_of_accepts (accepted : Accepts Reader.declaration run [] decl)
    (ordered : Token.Ordered (before ++ (run ++ after))) :
    decl.extent.Laid (before ++ (run ++ after)) before.length (before.length + run.length) := by
  have place : Cursor.At (before ++ (run ++ after)) before.length
      ⟨before.getLast?.map Token.span, run ++ after, []⟩ := ⟨by simp, by simp, by simp⟩
  obtain ⟨last, read⟩ := @Reader.exists_read_of_accepts
    ⟨before.getLast?.map Token.span, run ++ after, []⟩ _ _ _ accepted rfl
  obtain ⟨stop, onward, there, laid⟩ := Reader.lays_declaration ordered _ _ place
  rw [read] at there
  -- the reader stops where its run ends
  have left : after.length = (before ++ (run ++ after)).length - stop := by
    rw [← List.length_drop]
    exact congrArg List.length there.rest
  have within := there.within
  rw [List.length_append, List.length_append] at left within
  obtain rfl : stop = before.length + run.length := by omega
  exact laid decl _ read

theorem laidAll_of_declares (declares : Declares front decls)
    (ordered : Token.Ordered (before ++ (front ++ after))) :
    Extent.LaidAll (before ++ (front ++ after)) before.length (before.length + front.length)
      (decls.map Declaration.extent) := by
  induction declares generalizing before with
  | nil => exact .nil (Nat.le_refl _)
  | @cons run rest decl decls first others ih =>
      rw [List.append_assoc] at ordered ⊢
      have here := laid_of_accepts first ordered
      have behind := @ih (before ++ run) (by rwa [List.append_assoc])
      rw [List.append_assoc, List.length_append, Nat.add_assoc] at behind
      rw [List.length_append]
      exact .cons (Nat.le_refl _) here behind

end Grammar

namespace Program

open Grammar

variable {program : Program}

/-- The run of a declaration is that declaration, and moving the run moves it. -/
theorem exists_alone {run tokens : List Token} {decl : Declaration} {offset stop : Nat}
    (accepted : Accepts Reader.declaration run [] decl) (ended : Token.Ended tokens)
    (moved : tokens.map (Token.shift offset) = run ++ [Token.ending stop]) :
    ∃ alone, ofTokens tokens = .ok ⟨[alone]⟩ ∧ alone.mapSpans (·.shift offset) = decl := by
  have declares : Declares run [decl] := by
    have one := Declares.cons accepted .nil
    rwa [List.append_nil] at one
  have whole : ofTokens (run ++ [Token.ending stop]) = .ok ⟨[decl]⟩ :=
    ofTokens_joined declares ⟨Token.ending stop, rfl, rfl⟩
  rw [← moved, ofTokens_shift ended] at whole
  cases read : ofTokens tokens with
  | error faults =>
      rw [read] at whole
      cases whole
  | ok program =>
      rw [read] at whole
      have same : program.declarations.map (Declaration.mapSpans (Span.shift offset)) = [decl] :=
        congrArg Program.declarations (Except.ok.inj whole)
      obtain ⟨alone, one, rfl⟩ := List.map_eq_singleton_iff.mp same
      exact ⟨alone, congrArg (Except.ok ∘ Program.mk) one, rfl⟩

/-- Every part of a program stands exactly where its tokens do, and the program has no ranges but those of
its parts. The parts inside of a part are within its range, and one behind the other, and so are the
declarations of the program. The text of each declaration is that declaration also when it is read alone,
apart from where it begins. -/
theorem ofSource_placed {source : String} (read : ofSource source = .ok program) :
    ∃ tokens, Token.scan source = .ok tokens ∧
      (∀ part ∈ program.nodes, part.Exact tokens (byteCount source.toList)) ∧
      (∀ move, (∀ part ∈ program.nodes, move part.span = part.span) → program.mapSpans move = program) ∧
      program.declarations.Pairwise (fun decl next => decl.span.stop ≤ next.span.start) ∧
      ∀ decl ∈ program.declarations, ∃ front piece back alone,
        Token.Covers source.toList decl.span front piece back ∧
        ofSource (String.ofList piece) = .ok ⟨[alone]⟩ ∧
        alone.mapSpans (·.shift decl.span.start) = decl := by
  cases scanned : Token.scan source with
  | error faults =>
      rw [ofSource_of_error scanned] at read
      cases read
  | ok tokens =>
      rw [ofSource_of_ok scanned] at read
      obtain ⟨ordered, within⟩ := Token.ordered_of_scan scanned
      obtain ⟨visible, scans, rfl⟩ := Token.exists_scans_of_scan scanned
      -- the tokens in front of the end are runs, one for each declaration
      have more : ∀ token ∈ visible, token.kind ≠ .endOfFile :=
        fun token among => ((scans.tiles [] rfl).1 token among).found
      have declares := declares_of_ofTokens more rfl read
      have laid : Extent.LaidAll (visible ++ [Token.ending (byteCount source.toList)]) 0 visible.length
          (program.declarations.map Declaration.extent) := by
        simpa using @laidAll_of_declares [] _ _ _ declares ordered
      refine ⟨_, rfl, fun part among => ?_, fun move => program.mapSpans_of_fixed, ?_, fun decl among => ?_⟩
      · obtain ⟨first, stop, here⟩ := laid.exists_nodes _ part among
        exact here.exact ordered within
      · have apart := laid.apart ordered
        rw [List.pairwise_map] at apart
        simpa only [Declaration.span_extent] using apart
      · -- the text from the first to the last token of a run has the tokens of the run, moved to its front
        obtain ⟨before, run, after, rfl, accepted⟩ := declares.exists_run among
        rw [List.append_assoc, List.append_assoc] at ordered
        have spans := (laid_of_accepts accepted ordered).spans
        rw [Declaration.span_extent] at spans
        obtain ⟨first, last⟩ := spans.ends
        obtain ⟨front, piece, back, covers, found, alone, moved⟩ := scans.exists_piece first last
        obtain ⟨other, same, shifted⟩ := exists_alone accepted (ended_of_scan alone) moved
        exact ⟨front, piece, back, other, covers, (ofSource_of_ok alone).trans same, shifted⟩

theorem ofSource_placed_function :
    ∃ program, ofSource "/* é */ import a; fn f(b: Int) \x7b return b + 1; \x7d" = .ok program ∧
      program.declarations.map Declaration.span = [⟨9, 18⟩, ⟨19, 49⟩] ∧
      ∀ decl ∈ program.declarations, ∃ front piece back alone,
        Token.Covers "/* é */ import a; fn f(b: Int) \x7b return b + 1; \x7d".toList
          decl.span front piece back ∧
        ofSource (String.ofList piece) = .ok ⟨[alone]⟩ ∧
        alone.mapSpans (·.shift decl.span.start) = decl := by
  obtain ⟨program, read, spans⟩ : ∃ program,
      ofSource "/* é */ import a; fn f(b: Int) \x7b return b + 1; \x7d" = .ok program ∧
        (program.declarations.map Declaration.span == [⟨9, 18⟩, ⟨19, 49⟩]) = true :=
    exists_read _ (by decide +kernel)
  obtain ⟨_, _, _, _, _, alone⟩ := ofSource_placed read
  exact ⟨program, read, eq_of_beq spans, alone⟩

end Program

end DataClass
