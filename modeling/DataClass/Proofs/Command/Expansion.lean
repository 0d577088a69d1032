import DataClass.Command.Run
import DataClass.Proofs.Accessor.Rewriting
import DataClass.Proofs.Command.Formatting
namespace DataClass.Command

/-! The commands that run the pass over a file. All of them succeed for the same sources, and only
`expand` with its flag `write` changes the file. -/

open Accessor

variable {settings : Settings} {folder : Folder} {path : String} {address : Address} {source : String}

/-- The pass accepts a source: it can be cut into tokens, these are a program, and no error is reported
for it. -/
def Accepts (settings : Settings) (source : String) : Prop :=
  ∃ tokens program, Token.scan source = .ok tokens ∧ Program.ofTokens tokens = .ok program ∧
    ∀ diagnostic ∈ (run settings program).diagnostics, diagnostic.isError = false

theorem hasErrors_eq_false_iff {result : Run} :
    result.hasErrors = false ↔ ∀ diagnostic ∈ result.diagnostics, diagnostic.isError = false := by
  simp [Run.hasErrors]

theorem accepts_iff : Accepts settings source ↔
    ∃ program, Program.ofSource source = .ok program ∧
      (run settings program).hasErrors = false := by
  simp only [Accepts, Program.ofSource, hasErrors_eq_false_iff]
  constructor
  · rintro ⟨tokens, program, scanned, read, quiet⟩
    exact ⟨program, by rw [scanned]; exact read, quiet⟩
  · rintro ⟨program, read, quiet⟩
    cases scanned : Token.scan source with
    | error faults => simp [scanned, bind, Except.bind] at read
    | ok tokens => exact ⟨tokens, program, rfl, by simpa [scanned, bind, Except.bind] using read, quiet⟩

/-! ### One file -/

/-- A file is expanded exactly if its source is a program for which the pass reports no error. -/
theorem expandFile_eq_ok_iff (read : folder.read path = .ok (address, source))
    {expansion : Expansion} :
    expandFile settings folder path = .ok expansion ↔
      ∃ program, Program.ofSource source = .ok program ∧
        (run settings program).hasErrors = false ∧
        expansion = ⟨address, source, run settings program⟩ := by
  have start : readSource folder path = .ok (address, source) := by rw [readSource, read]; rfl
  cases parsed : Program.ofSource source with
  | error faults => simp [expandFile, start, expand, parsed, orFaulty, Except.mapError, bind, Except.bind]
  | ok program =>
      rw [expandFile, start]
      simp only [bind, Except.bind, expand_of_ofSource parsed, orFaulty, Except.mapError]
      cases errors : (run settings program).diagnostics.filter (·.isError) with
      | nil =>
          have quiet : (run settings program).hasErrors = false := by
            simpa [hasErrors_eq_false_iff, List.filter_eq_nil_iff] using errors
          constructor
          · intro same
            exact ⟨program, rfl, quiet, (Except.ok.inj same).symm⟩
          · rintro ⟨_, same, _, rfl⟩
            obtain rfl := Except.ok.inj same
            rfl
      | cons first rest =>
          have noisy : (run settings program).hasErrors = true :=
            List.any_eq_true.mpr ⟨first, by simpa using List.mem_filter.mp (errors ▸ List.mem_cons_self)⟩
          simp [noisy]

theorem exists_expandFile_iff (read : folder.read path = .ok (address, source)) :
    (∃ expansion, expandFile settings folder path = .ok expansion) ↔ Accepts settings source := by
  simp only [expandFile_eq_ok_iff read, accepts_iff]
  constructor
  · rintro ⟨_, program, parsed, quiet, rfl⟩
    exact ⟨program, parsed, quiet⟩
  · rintro ⟨program, parsed, quiet⟩
    exact ⟨_, program, parsed, quiet, rfl⟩

theorem code_outcome_iff {α : Type} {step : Step α} {finish : α → Outcome}
    (succeeds : ∀ value, (finish value).code = 0) :
    (step.outcome folder finish).code = 0 ↔ ∃ value, step = .ok value := by
  cases step with
  | error fault => simp [Step.outcome, Outcome.failure]
  | ok value => simp [Step.outcome, succeeds]

theorem folder_outcome {α : Type} {step : Step α} {finish : α → Outcome}
    (kept : ∀ value, step = .ok value → (finish value).folder = folder) :
    (step.outcome folder finish).folder = folder := by
  cases step with
  | error fault => rfl
  | ok value => exact kept value rfl

theorem code_writeExpansion (expansion : Expansion) :
    (writeExpansion folder path expansion).code = 0 := by
  rw [writeExpansion]
  split <;> rfl

theorem code_check_iff (read : folder.read path = .ok (address, source)) :
    (perform folder ⟨settings, .check path⟩).code = 0 ↔ Accepts settings source := by
  rw [← exists_expandFile_iff read]
  exact code_outcome_iff fun _ => rfl

theorem code_expand_iff (read : folder.read path = .ok (address, source)) (write : Bool) :
    (perform folder ⟨settings, .expand path write⟩).code = 0 ↔ Accepts settings source := by
  rw [← exists_expandFile_iff read]
  refine code_outcome_iff fun expansion => ?_
  cases write
  · rfl
  · exact code_writeExpansion expansion

theorem accepts_of_code_lower (read : folder.read path = .ok (address, source))
    (lowered : (perform folder ⟨settings, .lower path⟩).code = 0) : Accepts settings source := by
  obtain ⟨file, made⟩ := (code_outcome_iff fun _ => rfl).mp lowered
  rw [← exists_expandFile_iff read]
  cases expanded : expandFile settings folder path with
  | error fault => simp [lowerFile, expanded, bind, Except.bind] at made
  | ok expansion => exact ⟨expansion, rfl⟩

/-! ### Which commands change files -/

/-- A task that may change files. -/
def Task.Writes (task : Task) : Prop :=
  (∃ file, task = .expand file true) ∨ ∃ path, task = .format path ⟨false, false⟩

theorem folder_perform {task : Task} (reads : ¬ task.Writes) :
    (perform folder ⟨settings, task⟩).folder = folder := by
  cases task with
  | expand file write =>
      cases write with
      | false => exact folder_outcome fun _ _ => rfl
      | true => exact absurd (.inl ⟨file, rfl⟩) reads
  | format path mode =>
      have stays : mode.writes = false := by
        obtain ⟨check, diff⟩ := mode
        cases check <;> cases diff <;> first | rfl | exact absurd (.inr ⟨path, rfl⟩) reads
      rw [folder_format, stays]
      rfl
  | idle => rfl
  | _ => exact folder_outcome fun _ _ => rfl

/-- Of all command lines only those that ask for `expand` with its flag `write`, or for formatting
without a flag, can change a file. -/
theorem folder_execute {words : List String}
    (reads : ∀ invocation_, invocation words = .ok invocation_ → ¬ invocation_.task.Writes) :
    (execute folder words).folder = folder := by
  rw [execute]
  cases given : invocation words with
  | error halt => cases halt <;> rfl
  | ok invocation_ => exact folder_perform (reads invocation_ given)

/-! ### Writing a file -/

theorem perform_write (read : folder.read path = .ok (address, source)) {program : Program}
    (parsed : Program.ofSource source = .ok program)
    (quiet : (run settings program).hasErrors = false) :
    perform folder ⟨settings, .expand path true⟩ =
      writeExpansion folder path ⟨address, source, run settings program⟩ := by
  have expanded := (expandFile_eq_ok_iff read).mpr ⟨program, parsed, quiet, rfl⟩
  simp only [perform, expanded, Step.outcome, if_true]

theorem folder_writeExpansion (expansion : Expansion) :
    (writeExpansion folder path expansion).folder =
      if expansion.run.program.text .standard = expansion.source then folder
      else folder.write expansion.address (expansion.run.program.text .standard) := by
  simp only [writeExpansion, apply_ite Outcome.folder]
  rfl

/-- The file is still found once it has been written, and holds the text of the expanded program. -/
theorem exists_written (read : folder.read path = .ok (address, source)) (result : Run) :
    let after := (writeExpansion folder path ⟨address, source, result⟩).folder
    let text := result.program.text .standard
    Folder.Stored folder after address text ∧
      ∃ content, after.locate path = .ok (address, .file content) ∧ content.text = some text := by
  intro after text
  obtain ⟨content, located, whole⟩ := Folder.read_eq_ok_iff.mp read
  have held := (Content.read_eq_ok_iff.mp whole).2
  have there := Folder.content?_of_locate located
  have reached : after = if text = source then folder else folder.write address text :=
    folder_writeExpansion _
  by_cases unchanged : text = source
  · rw [reached, if_pos unchanged, unchanged]
    exact ⟨⟨by rw [there]; exact held, fun _ _ => rfl, rfl⟩, content, located, held⟩
  · rw [reached, if_neg unchanged]
    exact ⟨Folder.stored_write there text, .ofText text, Folder.locate_write located text, rfl⟩

theorem perform_expand_of_unreadable {fault : AccessFault}
    (unreadable : folder.read path = .error fault) (write : Bool) :
    perform folder ⟨settings, .expand path write⟩ =
      .failure folder (TaskFault.unreadable path fault).messages := by
  simp only [perform, expandFile, readSource, unreadable, bind, Except.bind, Except.mapError,
    Step.outcome]

/-- A file that has been written is accepted again, unless it has become too large, and is left as it
is. -/
theorem perform_write_again (allowed : 1 ≤ settings.maxRounds)
    (read : folder.read path = .ok (address, source)) (accepted : Accepts settings source) :
    let after := (perform folder ⟨settings, .expand path true⟩).folder
    let again := perform after ⟨settings, .expand path true⟩
    (again.code = 0 ↔ ∀ content, after.content? address = some content → content.size ≤ sizeLimit) ∧
      again.folder = after := by
  intro after again
  obtain ⟨program, parsed, quiet⟩ := accepts_iff.mp accepted
  obtain ⟨_, content, located, held⟩ := exists_written read (run settings program)
  replace located : after.locate path = .ok (address, .file content) := by
    rwa [← perform_write read parsed quiet] at located
  have there := Folder.content?_of_locate located
  simp only [there, Option.some.injEq, forall_eq']
  -- The second run reads the text of the first one, or it ends before it reads anything.
  by_cases fits : content.size ≤ sizeLimit
  · have reread := Folder.read_eq_ok_iff.mpr
      ⟨content, located, Content.read_eq_ok_iff.mpr ⟨fits, held⟩⟩
    obtain ⟨next, parsedAgain, quietAgain, same⟩ :=
      exists_reread_of_quiet allowed (Program.writable_of_ofSource parsed) quiet .standard
    have done : again = writeExpansion after path ⟨address, _, run settings next⟩ :=
      perform_write reread parsedAgain quietAgain
    rw [done]
    exact ⟨iff_of_true (code_writeExpansion _) fits, by rw [folder_writeExpansion, if_pos same]⟩
  · have large : after.read path = .error (.tooLarge content.size) := by
      simp only [Folder.read, located, bind, Except.bind, Content.read,
        if_pos (Nat.not_le.mp fits)]
      rfl
    have failed : again = .failure after (TaskFault.messages _) :=
      perform_expand_of_unreadable large true
    rw [failed]
    exact ⟨iff_of_false Nat.one_ne_zero fits, rfl⟩

theorem folder_expand_of_failed (write : Bool)
    (failed : (perform folder ⟨settings, .expand path write⟩).code ≠ 0) :
    (perform folder ⟨settings, .expand path write⟩).folder = folder := by
  cases expanded : expandFile settings folder path with
  | error fault => simp only [perform, expanded, Step.outcome, Outcome.failure]
  | ok expansion =>
      refine absurd ?_ failed
      cases write
      · simp [perform, expanded, Step.outcome, Outcome.success]
      · simpa [perform, expanded, Step.outcome] using code_writeExpansion expansion

/-- The commands about one file that can be read, with any options of the pass. The file is checked and
expanded successfully if the pass accepts its source, and lowered successfully only then. Of all command
lines only those with `expand --write` and those that format change a file. An expansion that is to be
written and fails changes nothing; one that succeeds leaves the text of the expanded program in the file,
and nothing else is changed. Asking for it once more changes nothing, and succeeds unless the file has
become larger than a file may be. -/
theorem perform_file (outer inner : Given) (read : folder.read path = .ok (address, source)) :
    let settings := settingsOf outer inner
    let written := perform folder ⟨settings, .expand path true⟩
    let again := perform written.folder ⟨settings, .expand path true⟩
    ((perform folder ⟨settings, .check path⟩).code = 0 ↔ Accepts settings source) ∧
    (∀ write, (perform folder ⟨settings, .expand path write⟩).code = 0 ↔ Accepts settings source) ∧
    ((perform folder ⟨settings, .lower path⟩).code = 0 → Accepts settings source) ∧
    (∀ words, (execute folder words).folder ≠ folder →
      ∃ invocation_, invocation words = .ok invocation_ ∧ invocation_.task.Writes) ∧
    (written.code ≠ 0 → written.folder = folder) ∧
    (written.code = 0 → ∃ program, Program.ofSource source = .ok program ∧
      Folder.Stored folder written.folder address ((run settings program).program.text .standard)) ∧
    (written.code = 0 → again.folder = written.folder ∧
      (again.code = 0 ↔
        ∀ content, written.folder.content? address = some content → content.size ≤ sizeLimit)) := by
  intro settings written again
  have allowed : 1 ≤ settings.maxRounds := Nat.le_max_right _ _
  have accepts : written.code = 0 ↔ Accepts settings source := code_expand_iff read true
  refine ⟨code_check_iff read, code_expand_iff read, accepts_of_code_lower read, ?_,
    folder_expand_of_failed true, ?_, ?_⟩
  · intro words changed
    by_contra none
    exact changed (folder_execute fun invocation_ given writes => none ⟨invocation_, given, writes⟩)
  · intro done
    obtain ⟨program, parsed, quiet⟩ := accepts_iff.mp (accepts.mp done)
    have result : written = writeExpansion folder path ⟨address, source, run settings program⟩ :=
      perform_write read parsed quiet
    rw [result]
    exact ⟨program, parsed, (exists_written read _).1⟩
  · intro done
    exact (perform_write_again allowed read (accepts.mp done)).symm

theorem perform_file_marked :
    let source := "@Data class A \x7b x: Int; \x7d"
    let folder := Folder.single source
    let settings := settingsOf .nothing .nothing
    let written := perform folder ⟨settings, .expand "a.dg" true⟩
    folder.read "a.dg" = .ok (["a.dg"], source) ∧ written.code = 0 ∧
      (perform written.folder ⟨settings, .expand "a.dg" true⟩).folder = written.folder ∧
      ∃ program, Program.ofSource source = .ok program ∧
        (run settings program).outcome.methodsAdded = 2 ∧
        Folder.Stored folder written.folder ["a.dg"] ((run settings program).program.text .standard) := by
  intro source folder settings written
  have read : folder.read "a.dg" = .ok (["a.dg"], source) :=
    Folder.read_single (Content.read_eq_ok_iff.mpr ⟨by decide, rfl⟩)
  obtain ⟨program, parsed, passed⟩ : ∃ program, Program.ofSource source = .ok program ∧
      (!(run settings program).hasErrors && (run settings program).outcome.methodsAdded == 2) = true :=
    Program.exists_read _ (by decide +kernel)
  obtain ⟨quiet, added⟩ : (run settings program).hasErrors = false ∧
      (run settings program).outcome.methodsAdded = 2 := by simpa using passed
  obtain ⟨_, accepts, _, _, _, stored, again⟩ := perform_file .nothing .nothing read
  have done : written.code = 0 := (accepts true).mpr (accepts_iff.mpr ⟨program, parsed, quiet⟩)
  obtain ⟨other, same, stored⟩ := stored done
  obtain rfl : program = other := Except.ok.inj (parsed.symm.trans same)
  exact ⟨read, done, (again done).1, program, parsed, added, stored⟩

theorem tagged_letterClass (marker : Marker) (count : Nat) :
    tagged marker (letterClass count) = [] := by
  simp [tagged, letterClass, taggedDeclarationsFrom, taggedInDeclaration, taggedInClass,
    taggedMembersFrom, taggedInMember, taggedIf, Marker.isOn]

theorem expand_letterClass (settings : Settings) {count : Nat} (fits : count + 20 ≤ sizeLimit) :
    let folder := Folder.single ((letterClass count).text tight)
    Accepts settings ((letterClass count).text tight) ∧
      (perform folder ⟨settings, .expand "a.dg" true⟩).folder =
        folder.write ["a.dg"] ((letterClass count).text .standard) := by
  intro folder
  obtain ⟨program, parsed, quiet, same⟩ := exists_text_of_unmarked
    (tagged_letterClass (.ofText settings.marker) count) (writable_letterClass count) tight .standard
  refine ⟨accepts_iff.mpr ⟨program, parsed, quiet⟩, ?_⟩
  rw [perform_write (Folder.read_single (read_letterClass fits)) parsed quiet, folder_writeExpansion]
  dsimp only
  rw [same, if_neg (text_letterClass_ne count).symm]

/-- Formatting changes a file too, and a file at the limit of size is expanded successfully, after which
it can no longer be read. -/
theorem perform_file_outgrown :
    let source := (letterClass (sizeLimit - 20)).text tight
    let folder := Folder.single source
    let asked : Invocation := ⟨settingsOf .nothing .nothing, .expand "a.dg" true⟩
    let written := perform folder asked
    folder.read "a.dg" = .ok (["a.dg"], source) ∧ written.code = 0 ∧
      (perform written.folder asked).code ≠ 0 ∧
      (execute folder ["fmt", "a.dg"]).folder ≠ folder := by
  intro source folder asked written
  have full : sizeLimit - 20 + 20 = sizeLimit := by decide
  have read := Folder.read_single (read_letterClass full.le)
  have allowed : 1 ≤ asked.settings.maxRounds := by decide
  obtain ⟨accepted, after⟩ := expand_letterClass asked.settings full.le
  refine ⟨read, (code_expand_iff read true).mpr accepted, ?_, ?_⟩
  · rw [ne_eq, (perform_write_again allowed read accepted).1, after,
      Folder.content?_write (Folder.content?_of_locate (Folder.locate_single source))]
    intro fits
    exact absurd (fits _ rfl) (Nat.not_le.mpr (size_letterClass_of_full full).2)
  · have given : invocation ["fmt", "a.dg"] = .ok ⟨.standard, .format "a.dg" ⟨false, false⟩⟩ := by
      rfl
    rw [execute, given]
    intro same
    have kept : folder.formatted "a.dg" = folder := (folder_format _).symm.trans same
    have listed := sources_formatted_letterClass full.le
    rw [kept, Folder.sources_single] at listed
    injection listed with entry
    injection entry with _ _ content
    exact text_letterClass_ne _ (Option.some.inj (congrArg Content.text content))

end DataClass.Command
