import DataClass.Command.Format
import DataClass.Proofs.Layout.Reformatting
import DataClass.Proofs.Text.Lines
namespace DataClass.Command

/-! What is shown of a file that is not formatted. A file counts as formatted if its whole text is
what it is formatted to, but lines are shown. So there are files that are not formatted and of which
no line is shown. -/

open Layout

variable {source formatted : String} {program : Program}

theorem isFormatted_of_ok (made : format .standard source = .ok formatted) :
    isFormatted source = .ok (source == formatted) := by
  rw [isFormatted, made]
  rfl

theorem difference_of_ok (made : format .standard source = .ok formatted) :
    difference source =
      .ok (if source = formatted then none else some (lineDifference source formatted)) := by
  rw [difference, made]
  simp [bind, Except.bind, pure, Except.pure]

theorem FormatState.ofSource_of_ok (made : format .standard source = .ok formatted) :
    ofSource source = if source = formatted then .settled else .pending source formatted := by
  rw [ofSource, made]

/-- What is shown of a text that is a program. Nothing is shown if the text is formatted. If it is not,
then the lines are shown that are not empty and that the other text has not under the same number, and
the file is reported together with these lines. There are none of them if the text differs from the
formatted one in nothing but how its lines end and how many line feeds there are at its end, and then
the file is reported all the same. -/
theorem difference_shows (read : Program.ofSource source = .ok program) :
    ∃ formatted, format .standard source = .ok formatted ∧
      (isFormatted source = .ok true ↔ source = formatted) ∧
      (difference source = .ok none ↔ isFormatted source = .ok true) ∧
      (isFormatted source ≠ .ok true → ∃ lines : List String,
        difference source = .ok (some (String.join lines)) ∧
        (∀ line, line ∈ lines ↔ ShownLine (linesOf source.toList) (linesOf formatted.toList) line) ∧
        (lines = [] ↔ bareText source.toList = bareText formatted.toList) ∧
        (String.join lines = "" ↔ bareText source.toList = bareText formatted.toList) ∧
        (FormatState.ofSource source).isPending = true ∧
        ∀ path, (FormatState.ofSource source).text ⟨false, true⟩ path =
          "--- " ++ path ++ "\n" ++ String.join lines ++ "\n") := by
  have made := format_of_ofSource read .standard
  refine ⟨_, made, ?_⟩
  generalize program.text .standard = formatted at made
  have check : isFormatted source = .ok true ↔ source = formatted := by
    rw [isFormatted_of_ok made, Except.ok.injEq, beq_iff_eq]
  refine ⟨check, ?_, fun unsettled => ?_⟩
  · rw [check, difference_of_ok made]
    split <;> simp_all
  · have apart : source ≠ formatted := mt check.mpr unsettled
    have state := FormatState.ofSource_of_ok made
    rw [if_neg apart] at state
    refine ⟨differenceLines 1 (linesOf source.toList) (linesOf formatted.toList), ?_,
      fun line => mem_differenceLines_one_iff, differenceLines_eq_nil_iff,
      lineDifference_eq_empty_iff source formatted, ?_, fun path => ?_⟩
    · rw [difference_of_ok made, if_neg apart, lineDifference]
    · rw [state, FormatState.isPending]
    · rw [state]
      simp [FormatState.text, FormatMode.writes, lineDifference]

/-- A class without a line feed at its end. -/
theorem difference_shows_unended :
    ∃ program, Program.ofSource "class A \x7b\x7d" = .ok program ∧
      isFormatted "class A \x7b\x7d" ≠ .ok true ∧ difference "class A \x7b\x7d" = .ok (some "") := by
  obtain ⟨program, read, written⟩ : ∃ program, Program.ofSource "class A \x7b\x7d" = .ok program ∧
      (program.text .standard == "class A \x7b\x7d\n") = true :=
    Program.exists_read _ (by decide +kernel)
  obtain ⟨formatted, made, check, _, shows⟩ := difference_shows read
  obtain rfl : formatted = "class A \x7b\x7d\n" := by
    rw [format_of_ofSource read, eq_of_beq written] at made
    exact (Except.ok.inj made).symm
  have unsettled : isFormatted "class A \x7b\x7d" ≠ .ok true := mt check.mp (by decide)
  obtain ⟨lines, differs, _, none, _⟩ := shows unsettled
  rw [none.mpr (by decide)] at differs
  exact ⟨program, read, unsettled, differs⟩

end DataClass.Command
