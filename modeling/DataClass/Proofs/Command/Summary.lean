import DataClass.Proofs.Command.Formatting
namespace DataClass.Command

/-! What a run that changes no file says at its end. It names the files that are not formatted, one by
one, but the number it ends with is that of all files. -/

open Layout

variable {folder : Folder} {path : String}

namespace Folder.Source

/-- The state in which the file is found. -/
def state (source : Source) : FormatState := .ofContent source.content

/-- The file is a program, and formatting changes it. -/
def isUnformatted (source : Source) : Bool := source.state.isPending

theorem isUnformatted_iff {source : Source} :
    source.isUnformatted = true ↔ ∃ text, source.Becomes text := by
  simp only [isUnformatted, Becomes, ← FormatState.ofContent_eq_pending_iff, state]
  cases FormatState.ofContent source.content <;> simp [FormatState.isPending]

end Folder.Source

namespace FormatSurvey

variable (sources : List Folder.Source)

theorem length_ofSources : (ofSources sources).length = sources.length := List.length_map ..

theorem pendingCount_ofSources :
    (ofSources sources).pendingCount = sources.countP Folder.Source.isUnformatted := by
  rw [pendingCount, ofSources, List.countP_map]
  rfl

theorem messages_ofSources : (ofSources sources).messages =
    sources.flatMap fun source => source.state.messages source.path := List.flatMap_map ..

/-- Something is printed about the files that are not formatted, and about no others. -/
theorem text_ofSources (mode : FormatMode) : (ofSources sources).text mode =
    String.join ((sources.filter Folder.Source.isUnformatted).map fun source =>
      source.state.text mode source.path) := by
  rw [text, ofSources, List.map_map]
  induction sources with
  | nil => rfl
  | cons source sources ih =>
      rw [List.map_cons, String.join_cons, ih]
      cases unformatted : source.isUnformatted with
      | true => rw [List.filter_cons_of_pos unformatted, List.map_cons, String.join_cons]; rfl
      | false =>
          have silent : source.state.text mode source.path = "" := by
            unfold Folder.Source.isUnformatted at unformatted
            cases found : source.state <;> simp_all [FormatState.isPending, FormatState.text]
          rw [List.filter_cons_of_neg (by simp [unformatted])]
          exact (congrArg (· ++ _) silent).trans (String.empty_append ..)

end FormatSurvey

/-- What a run that changes no file comes to. -/
theorem formatFiles_of_stays {mode : FormatMode} (stays : mode.writes = false)
    (some : folder.sources path ≠ []) :
    let survey := FormatSurvey.ofSources (folder.sources path)
    formatFiles folder path mode =
      if survey.pendingCount = 0 then
        ⟨if survey.faultCount = 0 then 0 else 1, .text (survey.text mode ++ survey.settledText),
          survey.messages, folder⟩
      else ⟨1, .text (survey.text mode), survey.messages ++ survey.pendingMessages mode, folder⟩ := by
  have there : (FormatSurvey.ofSources (folder.sources path)).isEmpty = false := by
    simpa [FormatSurvey.ofSources] using some
  rw [formatFiles, there, stays]
  rfl

/-- The end of a run that changes no file. If some files are not formatted, the run fails; it prints
something about these files and no others, but the number it says is that of all files, and so it is that
of the files that are not formatted only if all of them are not. If no file is unformatted, the number of
all files is said to be formatted already. That is so just if the run succeeds, for files that cannot be
read or are no programs are counted as well. -/
theorem format_summary (settings : Accessor.Settings) (mode : FormatMode) (stays : mode.writes = false)
    (some : folder.sources path ≠ []) :
    let sources := folder.sources path
    let outcome := perform folder ⟨settings, .format path mode⟩
    let unformatted := sources.filter Folder.Source.isUnformatted
    let problems := sources.flatMap fun source => source.state.messages source.path
    (∀ source ∈ sources, source.isUnformatted = true ↔ ∃ text, source.Becomes text) ∧
    (unformatted ≠ [] →
      outcome.code = 1 ∧
      outcome.output = .text (String.join (unformatted.map fun source => source.state.text mode source.path)) ∧
      outcome.messages = problems ++ ["", toString sources.length ++ " file(s) " ++
        if mode.diff then "need formatting" else "would be reformatted"] ∧
      (sources.length = unformatted.length ↔ ∀ source ∈ sources, ∃ text, source.Becomes text)) ∧
    (unformatted = [] →
      outcome.output = .text ("✓ " ++ toString sources.length ++ " file(s) already formatted\n") ∧
      outcome.messages = problems ∧
      (outcome.code = 0 ↔ ∀ source ∈ sources, source.IsSettled)) := by
  intro sources outcome unformatted problems
  have ends : outcome = _ := formatFiles_of_stays stays some
  have printed : (FormatSurvey.ofSources sources).text mode = String.join (unformatted.map _) :=
    FormatSurvey.text_ofSources sources mode
  have count : (FormatSurvey.ofSources sources).pendingCount = unformatted.length := by
    rw [FormatSurvey.pendingCount_ofSources, List.countP_eq_length_filter]
  rw [count, printed, FormatSurvey.messages_ofSources] at ends
  refine ⟨fun source _ => Folder.Source.isUnformatted_iff, fun found => ?_, fun none => ?_⟩
  · rw [if_neg (mt List.length_eq_zero_iff.mp found), FormatSurvey.pendingMessages,
      FormatSurvey.length_ofSources] at ends
    refine ⟨by rw [ends], by rw [ends], by rw [ends], ?_⟩
    rw [eq_comm, List.length_filter_eq_length_iff]
    exact forall₂_congr fun _ _ => Folder.Source.isUnformatted_iff
  · have settled : outcome.code = 0 ↔ ∀ source ∈ sources, source.IsSettled :=
      code_format_stay_iff some stays
    rw [if_pos (List.length_eq_zero_iff.mpr none), FormatSurvey.settledText,
      FormatSurvey.length_ofSources, none] at ends
    refine ⟨?_, by rw [ends], settled⟩
    rw [ends]
    exact congrArg Output.text (String.empty_append ..)

/-- Of two files one is not formatted, and the number that is said is two. Of two files one is no program,
and two are said to be formatted. -/
theorem format_summary_mixed :
    let good : Content := .ofText "class B \x7b\x7d\n"
    let mixed := Folder.ofFiles [⟨["a.dg"], .ofText "class A\x7b\x7d"⟩, ⟨["b.dg"], good⟩]
    let faulty := Folder.ofFiles [⟨["a.dg"], .ofText "class \x7b"⟩, ⟨["b.dg"], good⟩]
    let check (folder : Folder) := perform folder ⟨.standard, .format "." ⟨true, false⟩⟩
    ((mixed.sources ".").filter Folder.Source.isUnformatted).length = 1 ∧
      (check mixed).messages = ["", "2 file(s) would be reformatted"] ∧
      (check faulty).output = .text "✓ 2 file(s) already formatted\n" ∧ (check faulty).code ≠ 0 := by
  intro good mixed faulty check
  have listed : mixed.sources "." =
      [⟨"./a.dg", ["a.dg"], .ofText "class A\x7b\x7d"⟩, ⟨"./b.dg", ["b.dg"], good⟩] := by cbv
  have listed' : faulty.sources "." =
      [⟨"./a.dg", ["a.dg"], .ofText "class \x7b"⟩, ⟨"./b.dg", ["b.dg"], good⟩] := by cbv
  have pending : Folder.Source.isUnformatted ⟨"./a.dg", ["a.dg"], .ofText "class A\x7b\x7d"⟩ = true := by
    decide +kernel
  have broken : Folder.Source.isUnformatted ⟨"./a.dg", ["a.dg"], .ofText "class \x7b"⟩ = false := by
    decide +kernel
  have settled : Folder.Source.isUnformatted ⟨"./b.dg", ["b.dg"], good⟩ = false := by decide +kernel
  obtain ⟨_, fails, _⟩ := format_summary .standard ⟨true, false⟩ rfl
    (show mixed.sources "." ≠ [] by simp [listed])
  obtain ⟨_, _, succeeds⟩ := format_summary .standard ⟨true, false⟩ rfl
    (show faulty.sources "." ≠ [] by simp [listed'])
  have one : (mixed.sources ".").filter Folder.Source.isUnformatted =
      [⟨"./a.dg", ["a.dg"], .ofText "class A\x7b\x7d"⟩] := by
    simp [listed, pending, settled]
  have none : (faulty.sources ".").filter Folder.Source.isUnformatted = [] := by
    simp [listed', broken, settled]
  obtain ⟨_, _, said, _⟩ := fails (by simp [one])
  obtain ⟨said', _, code⟩ := succeeds none
  refine ⟨by rw [one]; rfl, said.trans ?_, said'.trans ?_, fun success => ?_⟩
  · rw [listed]
    decide +kernel
  · rw [listed']
    decide +kernel
  · have first := code.mp success ⟨"./a.dg", ["a.dg"], .ofText "class \x7b"⟩ (by simp [listed'])
    have fault : (FormatState.ofContent (.ofText "class \x7b")).isFault = true := by decide +kernel
    rw [(Folder.Source.isSettled_iff.mp first).1] at fault
    cases fault

end DataClass.Command
