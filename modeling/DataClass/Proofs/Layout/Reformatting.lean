import DataClass.Proofs.Layout.RoundTrip
namespace DataClass.Layout

/-! Formatting a formatted text. Which style a text has been written in makes no difference to what
it is formatted to. -/

variable {source : String} {program : Program}

theorem format_of_ofSource (read : Program.ofSource source = .ok program) (style : Style) :
    format style source = .ok (program.text style) := by
  rw [format, read]
  rfl

theorem isFormatted_of_format (formatted : format .standard source = .ok source) :
    isFormatted source = .ok true := by
  rw [isFormatted, formatted]
  simp [bind, Except.bind, pure, Except.pure]

/-- Every text in which a program is written can be read, and is formatted to what the program is
written as. -/
theorem format_text (writable : program.Writable) (first second : Style) :
    (∃ again, Program.ofSource (program.text first) = .ok again) ∧
      format second (program.text first) = .ok (program.text second) := by
  obtain ⟨again, read, same⟩ := Program.ofSource_text_spelled writable first
  have readable := Program.writable_of_ofSource read
  refine ⟨⟨again, read⟩, ?_⟩
  rw [format_of_ofSource read, Program.text_of_erase writable readable same]

/-- Formatting forgets the layout of a text. What can be read can be formatted, the result can be read,
and it is formatted in any other style as the text is itself. In particular a second formatting in the
same style changes nothing, and what has been formatted in the standard style counts as formatted. -/
theorem format_format (read : Program.ofSource source = .ok program) (first second : Style) :
    ∃ text, format first source = .ok text ∧
      (∃ again, Program.ofSource text = .ok again) ∧
      (∃ other, format second source = .ok other ∧ format second text = .ok other) ∧
      format first text = .ok text ∧
      (first = .standard → isFormatted text = .ok true) := by
  have writable := Program.writable_of_ofSource read
  obtain ⟨readable, other⟩ := format_text writable first second
  have same := (format_text writable first first).2
  refine ⟨program.text first, format_of_ofSource read first, readable,
    ⟨program.text second, format_of_ofSource read second, other⟩, same, ?_⟩
  rintro rfl
  exact isFormatted_of_format same

/-- A class with both quotes, a backslash and a control character in a string, and with a number of
310 digits, which is infinite. -/
def quotesText : List Char :=
  "class A \x7b s = '\"\\'\\\\\\t\x00'; x = 1".toList ++ List.replicate 309 '0' ++ ".0; \x7d".toList

theorem format_format_quotes :
    ∃ program, Program.ofSource (.ofList quotesText) = .ok program ∧ program.isFinite = false ∧
      ∃ text, format ⟨2, .single, 3, 0⟩ (.ofList quotesText) = .ok text ∧
        ∃ other, format .standard (.ofList quotesText) = .ok other ∧
          format .standard text = .ok other := by
  obtain ⟨program, read, infinite⟩ : ∃ program, Program.ofSource (.ofList quotesText) = .ok program ∧
      (!program.isFinite) = true :=
    Program.exists_read_ofList _ (by decide +kernel) (by decide +kernel)
  obtain ⟨text, formatted, _, other, _⟩ := format_format read ⟨2, .single, 3, 0⟩ .standard
  exact ⟨program, read, by simpa using infinite, text, formatted, other⟩

end DataClass.Layout
