import DataClass.Command.Run
import DataClass.Proofs.Command.Outgrowing
namespace DataClass.Command

/-! Formatting all source files that a path stands for. What happens to a file follows from its own
content alone, whatever the other files hold. -/

open Layout

variable {settings : Accessor.Settings} {folder : Folder} {path : String} {address : Address}
  {content : Content} {text : String}

/-! ### One content -/

namespace FormatState

/-- What a content that has been found in a state is replaced by. -/
def stored (state : FormatState) (content : Content) : Content :=
  match state with
  | .pending _ formatted => .ofText formatted
  | _ => content

theorem stored_stored (state : FormatState) (content : Content) :
    state.stored (state.stored content) = state.stored content := by
  cases state <;> rfl

theorem ofContent_of_read (read : content.read = .ok text) : ofContent content = ofSource text := by
  rw [ofContent, read]

theorem ofContent_eq_pending_iff {formatted : String} : ofContent content = .pending text formatted ↔
    content.read = .ok text ∧ format .standard text = .ok formatted ∧ text ≠ formatted := by
  cases read : content.read with
  | error fault => simp [ofContent, read]
  | ok source =>
      rw [ofContent_of_read read, ofSource, Except.ok.injEq]
      cases made : format .standard source with
      | error faults =>
          simp only [reduceCtorEq, false_iff, not_and]
          rintro rfl same
          simp [made] at same
      | ok other =>
          dsimp only
          split
          · next same =>
            simp only [reduceCtorEq, false_iff, not_and, not_not]
            rintro rfl again
            rw [same, ← Except.ok.inj (made.symm.trans again)]
          · next apart =>
            simp only [pending.injEq]
            constructor
            · rintro ⟨rfl, rfl⟩
              exact ⟨rfl, made, apart⟩
            · rintro ⟨rfl, again, _⟩
              exact ⟨rfl, Except.ok.inj (made.symm.trans again)⟩

theorem ofContent_eq_settled_iff : ofContent content = .settled ↔
    ∃ text, content.read = .ok text ∧ format .standard text = .ok text := by
  cases read : content.read with
  | error fault => simp [ofContent, read]
  | ok source =>
      simp only [ofContent_of_read read, ofSource, Except.ok.injEq, exists_eq_left']
      cases made : format .standard source with
      | error faults => simp
      | ok other =>
          simp only [Except.ok.injEq]
          split
          · next same => simp [same]
          · next apart => simp [Ne.symm apart]

theorem isFault_ofContent_iff : (ofContent content).isFault = false ↔
    ∃ text program, content.read = .ok text ∧ Program.ofSource text = .ok program := by
  cases read : content.read with
  | error fault => simp [ofContent, read, isFault]
  | ok source =>
      simp only [ofContent_of_read read, ofSource, Except.ok.injEq]
      cases parsed : Program.ofSource source with
      | error faults =>
          have failed : format .standard source = .error faults := by rw [format, parsed]; rfl
          simp [failed, isFault, parsed]
      | ok program =>
          rw [format_of_ofSource parsed]
          refine iff_of_true ?_ ⟨source, program, rfl, parsed⟩
          dsimp only
          split <;> rfl

end FormatState

namespace Content

/-- What formatting makes of a content. -/
def formatted (content : Content) : Content := (FormatState.ofContent content).stored content

theorem text_formatted {program : Program} (read : content.read = .ok text)
    (parsed : Program.ofSource text = .ok program) :
    content.formatted.text = some (program.text .standard) := by
  rw [formatted, FormatState.ofContent_of_read read, FormatState.ofSource,
    format_of_ofSource parsed]
  dsimp only
  split
  · next same => exact same ▸ (read_eq_ok_iff.mp read).2
  · rfl

/-- What has been formatted is found to be so, unless it has become too large. -/
theorem ofContent_formatted_iff (sound : (FormatState.ofContent content).isFault = false) :
    FormatState.ofContent content.formatted = .settled ↔ content.formatted.size ≤ sizeLimit := by
  obtain ⟨text, program, read, parsed⟩ := FormatState.isFault_ofContent_iff.mp sound
  have left := text_formatted read parsed
  rw [FormatState.ofContent_eq_settled_iff]
  constructor
  · rintro ⟨_, again, _⟩
    exact (read_eq_ok_iff.mp again).1
  · intro fits
    have same := (format_text (Program.writable_of_ofSource parsed) .standard .standard).2
    exact ⟨program.text .standard, read_eq_ok_iff.mpr ⟨fits, left⟩, same⟩

end Content

/-! ### Storing -/

namespace FormatEntry

/-- The change that one entry of a survey makes. -/
def storing (entry : FormatEntry) (address : Address) (content : Content) : Content :=
  if address = entry.address then entry.state.stored content else content

end FormatEntry

namespace FormatSurvey

/-- The change that the entries of a survey make, one after the other. -/
def storing (survey : FormatSurvey) (address : Address) (content : Content) : Content :=
  survey.foldl (fun content entry => entry.storing address content) content

theorem store_cons (entry : FormatEntry) (rest : FormatSurvey) (folder : Folder) :
    store folder (entry :: rest) = store (folder.rewrite entry.storing) rest := by
  have here : folder.rewrite entry.storing =
      match entry.state with
      | .pending _ formatted => folder.write entry.address formatted
      | _ => folder := by
    cases found : entry.state with
    | pending source formatted =>
        dsimp only
        rw [Folder.write_eq_rewrite]
        congr 1
        funext address content
        simp only [FormatEntry.storing, found, FormatState.stored, Folder.writing]
    | _ =>
        refine Folder.rewrite_of_forall fun file _ => ?_
        simp only [FormatEntry.storing, found, FormatState.stored, ite_self]
  rw [here, store]
  cases entry.state <;> rfl

theorem store_eq_rewrite (survey : FormatSurvey) (folder : Folder) :
    store folder survey = folder.rewrite survey.storing := by
  induction survey generalizing folder with
  | nil => exact (Folder.rewrite_of_forall fun _ _ => rfl).symm
  | cons entry rest ih =>
      rw [store_cons, ih, Folder.rewrite_rewrite]
      rfl

/-- If all entries for an address tell the same state, they make the change that one of them makes. -/
theorem storing_of_forall {survey : FormatSurvey} {state : FormatState}
    (agree : ∀ entry ∈ survey, entry.address = address → entry.state = state) (content : Content) :
    survey.storing address content =
      if ∃ entry ∈ survey, entry.address = address then state.stored content else content := by
  induction survey generalizing content with
  | nil => simp [storing]
  | cons entry rest ih =>
      have later := ih (List.forall_mem_cons.mp agree).2
      rw [storing, List.foldl_cons]
      change FormatSurvey.storing rest address (entry.storing address content) = _
      rw [later]
      -- An entry behind this one for the same address stores the same once more.
      by_cases here : entry.address = address
      · have told := agree entry List.mem_cons_self here
        rw [FormatEntry.storing, if_pos here.symm, told, FormatState.stored_stored, ite_self,
          if_pos ⟨entry, List.mem_cons_self, here⟩]
      · rw [FormatEntry.storing, if_neg (Ne.symm here)]
        simp [here]

end FormatSurvey

namespace Folder

/-- The addresses of the source files that a path stands for. -/
def sourceAddresses (folder : Folder) (path : String) : List Address :=
  (folder.sources path).map (·.address)

/-- The folder with all source files that a path stands for formatted. -/
def formatted (folder : Folder) (path : String) : Folder :=
  folder.rewrite (FormatSurvey.ofSources (folder.sources path)).storing

theorem storing_ofSources (distinct : folder.Distinct)
    (there : folder.content? address = some content) :
    (FormatSurvey.ofSources (folder.sources path)).storing address content =
      if address ∈ folder.sourceAddresses path then content.formatted else content := by
  have agree : ∀ entry ∈ FormatSurvey.ofSources (folder.sources path), entry.address = address →
      entry.state = .ofContent content := by
    rintro _ entered rfl
    obtain ⟨source, listed, rfl⟩ := List.mem_map.mp entered
    have held := content?_of_mem_sources distinct listed
    obtain rfl : source.content = content := Option.some.inj (held.symm.trans there)
    rfl
  rw [FormatSurvey.storing_of_forall agree]
  simp only [FormatSurvey.ofSources, sourceAddresses, List.mem_map, exists_exists_and_eq_and]
  rfl

theorem content?_formatted (distinct : folder.Distinct) :
    (folder.formatted path).content? address =
      if address ∈ folder.sourceAddresses path then (folder.content? address).map Content.formatted
      else folder.content? address := by
  rw [formatted, content?_rewrite]
  cases there : folder.content? address with
  | none => simp
  | some content =>
      rw [Option.map_some, storing_ofSources distinct there]
      split <;> rfl

theorem sources_formatted (distinct : folder.Distinct) :
    (folder.formatted path).sources path = (folder.sources path).map fun source =>
      { source with content := source.content.formatted } := by
  rw [formatted, sources_rewrite]
  refine List.map_congr_left fun source listed => ?_
  have inside : source.address ∈ folder.sourceAddresses path := List.mem_map_of_mem listed
  rw [storing_ofSources distinct (content?_of_mem_sources distinct listed), if_pos inside]

end Folder

/-! ### The command -/

namespace Folder.Source

variable {source : Source}

/-- The file can be read, and its text is a program. -/
def IsSound (source : Source) : Prop :=
  ∃ text program, source.content.read = .ok text ∧ Program.ofSource text = .ok program

/-- The text of the file is a program and formatted. -/
def IsSettled (source : Source) : Prop :=
  ∃ text, source.content.read = .ok text ∧ format .standard text = .ok text

/-- The text of the file is a program and formatted to another text. -/
def Becomes (source : Source) (formatted : String) : Prop :=
  ∃ text, source.content.read = .ok text ∧ format .standard text = .ok formatted ∧ text ≠ formatted

theorem Becomes.formatted_content (becomes : source.Becomes text) :
    source.content.formatted = .ofText text := by
  obtain ⟨_, found⟩ := becomes
  rw [Content.formatted, FormatState.ofContent_eq_pending_iff.mpr found]
  rfl

theorem formatted_content_of_forall (stays : ∀ text, ¬ source.Becomes text) :
    source.content.formatted = source.content := by
  rw [Content.formatted]
  cases found : FormatState.ofContent source.content with
  | pending text formatted =>
      exact absurd ⟨text, FormatState.ofContent_eq_pending_iff.mp found⟩ (stays formatted)
  | _ => rfl

theorem isSettled_iff : source.IsSettled ↔
    (FormatState.ofContent source.content).isFault = false ∧
      (FormatState.ofContent source.content).isPending = false := by
  rw [IsSettled, ← FormatState.ofContent_eq_settled_iff]
  cases FormatState.ofContent source.content <;>
    simp [FormatState.isFault, FormatState.isPending]

end Folder.Source

theorem folder_format (mode : FormatMode) :
    (perform folder ⟨settings, .format path mode⟩).folder =
      if mode.writes then folder.formatted path else folder := by
  simp only [perform, formatFiles, FormatSurvey.store_eq_rewrite]
  split
  · next none =>
    have nothing : FormatSurvey.ofSources (folder.sources path) = [] := List.isEmpty_iff.mp none
    have same : folder.formatted path = folder := by
      rw [Folder.formatted, nothing]
      exact Folder.rewrite_of_forall fun _ _ => rfl
    rw [same, ite_self]
    rfl
  · cases mode.writes with
    | true => rfl
    | false =>
        simp only [Bool.false_eq_true, if_false]
        split <;> rfl

theorem code_format_iff (mode : FormatMode) :
    (perform folder ⟨settings, .format path mode⟩).code = 0 ↔
      folder.sources path ≠ [] ∧ ∀ source ∈ folder.sources path,
        (FormatState.ofContent source.content).isFault = false ∧
        (mode.writes = false → (FormatState.ofContent source.content).isPending = false) := by
  have faults : (FormatSurvey.ofSources (folder.sources path)).faultCount = 0 ↔
      ∀ source ∈ folder.sources path, (FormatState.ofContent source.content).isFault = false := by
    simp [FormatSurvey.faultCount, FormatSurvey.ofSources, FormatEntry.ofSource,
      List.countP_eq_zero]
  have pending : (FormatSurvey.ofSources (folder.sources path)).pendingCount = 0 ↔
      ∀ source ∈ folder.sources path, (FormatState.ofContent source.content).isPending = false := by
    simp [FormatSurvey.pendingCount, FormatSurvey.ofSources, FormatEntry.ofSource,
      List.countP_eq_zero]
  have empty : (FormatSurvey.ofSources (folder.sources path)).isEmpty = true ↔
      folder.sources path = [] := by
    simp [FormatSurvey.ofSources]
  simp only [perform, formatFiles, forall_and, ← faults]
  by_cases none : folder.sources path = []
  · rw [if_pos (empty.mpr none)]
    simp [none, Outcome.failure]
  · rw [if_neg (mt empty.mp none)]
    cases mode.writes with
    | true => simp [none]
    | false =>
        simp only [Bool.false_eq_true, if_false, forall_const, ← pending]
        split
        · next settled => simp [none, settled]
        · next unsettled => simp [unsettled]

theorem code_format_write_iff (some : folder.sources path ≠ []) :
    (perform folder ⟨settings, .format path ⟨false, false⟩⟩).code = 0 ↔
      ∀ source ∈ folder.sources path, source.IsSound := by
  simp [code_format_iff, some, FormatMode.writes, FormatState.isFault_ofContent_iff,
    Folder.Source.IsSound]

theorem code_format_stay_iff (some : folder.sources path ≠ []) {mode : FormatMode}
    (stays : mode.writes = false) :
    (perform folder ⟨settings, .format path mode⟩).code = 0 ↔
      ∀ source ∈ folder.sources path, source.IsSettled := by
  simp [code_format_iff, some, stays, Folder.Source.isSettled_iff]

/-- What has been written is found to be formatted, unless it has become too large. -/
theorem code_format_again_iff (distinct : folder.Distinct) (some : folder.sources path ≠ [])
    (sound : ∀ source ∈ folder.sources path, source.IsSound) {mode : FormatMode}
    (stays : mode.writes = false) :
    (perform (folder.formatted path) ⟨settings, .format path mode⟩).code = 0 ↔
      ∀ source ∈ (folder.formatted path).sources path, source.content.size ≤ sizeLimit := by
  have listed : (folder.formatted path).sources path = _ := Folder.sources_formatted distinct
  have some' : (folder.formatted path).sources path ≠ [] := by simpa [listed] using some
  rw [code_format_stay_iff some' stays, listed]
  simp only [List.forall_mem_map]
  refine forall₂_congr fun source inside => ?_
  rw [Folder.Source.IsSettled, ← FormatState.ofContent_eq_settled_iff]
  exact Content.ofContent_formatted_iff (FormatState.isFault_ofContent_iff.mpr (sound source inside))

theorem becomes_letterClass {count : Nat} (fits : count + 20 ≤ sizeLimit) (path : String)
    (address : Address) :
    (⟨path, address, .ofText ((letterClass count).text tight)⟩ : Folder.Source).Becomes
      ((letterClass count).text .standard) :=
  ⟨_, read_letterClass fits, (format_text (writable_letterClass count) tight .standard).2,
    text_letterClass_ne count⟩

theorem sources_formatted_letterClass {count : Nat} (fits : count + 20 ≤ sizeLimit) :
    ((Folder.single ((letterClass count).text tight)).formatted "a.dg").sources "a.dg" =
      [⟨"a.dg", ["a.dg"], .ofText ((letterClass count).text .standard)⟩] := by
  rw [Folder.sources_formatted (Folder.distinct_single _), Folder.sources_single, List.map_singleton,
    (becomes_letterClass fits "a.dg" ["a.dg"]).formatted_content]

theorem isSound_letterClass {count : Nat} (fits : count + 20 ≤ sizeLimit) :
    ∀ source ∈ (Folder.single ((letterClass count).text tight)).sources "a.dg",
      source.IsSound := by
  obtain ⟨program, parsed⟩ := (format_text (writable_letterClass count) tight .standard).1
  rw [Folder.sources_single]
  exact List.forall_mem_singleton.mpr ⟨_, program, read_letterClass fits, parsed⟩

/-- Formatting all source files that a path stands for. A run that only checks or shows changes no
file. A run that writes gives the files that are programs and not formatted their formatted text, and
changes nothing else. It succeeds if all files are programs, the other one if they are formatted as
well. After a run that wrote and succeeded the check succeeds too, unless a file has become larger than
a file may be. -/
theorem format_files (settings : Accessor.Settings) (distinct : folder.Distinct)
    (some : folder.sources path ≠ []) :
    let sources := folder.sources path
    let formatting (mode : FormatMode) := perform folder ⟨settings, .format path mode⟩
    let written := formatting ⟨false, false⟩
    (∀ mode, mode.writes = false → (formatting mode).folder = folder ∧
      ((formatting mode).code = 0 ↔ ∀ source ∈ sources, source.IsSettled)) ∧
    (∀ source ∈ sources, ∀ text, source.Becomes text →
      written.folder.content? source.address = .some (.ofText text)) ∧
    (∀ address, (∀ source ∈ sources, source.address = address → ∀ text, ¬ source.Becomes text) →
      written.folder.content? address = folder.content? address) ∧
    written.folder.directories = folder.directories ∧
    (written.code = 0 ↔ ∀ source ∈ sources, source.IsSound) ∧
    (written.code = 0 → ∀ mode, mode.writes = false →
      ((perform written.folder ⟨settings, .format path mode⟩).code = 0 ↔
        ∀ source ∈ written.folder.sources path, source.content.size ≤ sizeLimit)) := by
  intro sources formatting written
  have after : written.folder = folder.formatted path := folder_format ⟨false, false⟩
  have sound : written.code = 0 ↔ ∀ source ∈ sources, source.IsSound := code_format_write_iff some
  rw [after]
  refine ⟨fun mode stays => ⟨?_, code_format_stay_iff some stays⟩, ?_, ?_, rfl, sound, ?_⟩
  · rw [folder_format, stays]
    rfl
  · intro source listed text becomes
    have inside : source.address ∈ folder.sourceAddresses path := List.mem_map_of_mem listed
    rw [Folder.content?_formatted distinct, if_pos inside,
      Folder.content?_of_mem_sources distinct listed, Option.map_some, becomes.formatted_content]
  · intro address stays
    rw [Folder.content?_formatted distinct]
    split
    · next inside =>
      obtain ⟨source, listed, rfl⟩ := List.mem_map.mp inside
      rw [Folder.content?_of_mem_sources distinct listed, Option.map_some,
        Folder.Source.formatted_content_of_forall (stays source listed rfl)]
    · rfl
  · intro done mode stays
    exact code_format_again_iff distinct some (sound.mp done) stays

theorem format_files_letterClass :
    let folder := Folder.single ((letterClass 3).text tight)
    let written := perform folder ⟨.standard, .format "a.dg" ⟨false, false⟩⟩
    folder.Distinct ∧ folder.sources "a.dg" ≠ [] ∧ written.code = 0 ∧
      written.folder.content? ["a.dg"] = some (.ofText ((letterClass 3).text .standard)) ∧
      (perform written.folder ⟨.standard, .format "a.dg" ⟨true, false⟩⟩).code = 0 := by
  intro folder written
  have fits : 3 + 20 ≤ sizeLimit := by decide
  have some : folder.sources "a.dg" ≠ [] := by simp [folder, Folder.sources_single]
  have distinct := Folder.distinct_single ((letterClass 3).text tight)
  obtain ⟨_, changes, _, _, sound, again⟩ := format_files .standard distinct some
  have done : written.code = 0 := sound.mpr (isSound_letterClass fits)
  refine ⟨distinct, some, done, ?_, (again done ⟨true, false⟩ rfl).mpr ?_⟩
  · refine changes ⟨"a.dg", ["a.dg"], _⟩ ?_ _ (becomes_letterClass fits _ _)
    rw [Folder.sources_single]
    exact List.mem_singleton_self _
  · rw [folder_format]
    simp only [FormatMode.writes, Bool.not_false, Bool.and_self, if_true,
      sources_formatted_letterClass fits, List.forall_mem_singleton]
    exact (size_letterClass .standard 3).trans_le (by decide)

/-- A file at the limit of size is formatted successfully, and then can no longer be read. -/
theorem format_files_outgrown :
    let folder := Folder.single ((letterClass (sizeLimit - 20)).text tight)
    let written := perform folder ⟨.standard, .format "a.dg" ⟨false, false⟩⟩
    folder.Distinct ∧ folder.sources "a.dg" ≠ [] ∧
      (∀ source ∈ folder.sources "a.dg", ∃ text, source.content.read = .ok text) ∧
      written.code = 0 ∧
      (perform written.folder ⟨.standard, .format "a.dg" ⟨true, false⟩⟩).code ≠ 0 := by
  intro folder written
  have full : sizeLimit - 20 + 20 = sizeLimit := by decide
  have some : folder.sources "a.dg" ≠ [] := by simp [folder, Folder.sources_single]
  have distinct := Folder.distinct_single ((letterClass (sizeLimit - 20)).text tight)
  have sound := isSound_letterClass full.le
  have after : written.folder = folder.formatted "a.dg" := folder_format ⟨false, false⟩
  refine ⟨distinct, some, ?_, (code_format_write_iff some).mpr sound, ?_⟩
  · intro source listed
    obtain ⟨text, _, read, _⟩ := sound source listed
    exact ⟨text, read⟩
  · rw [after, ne_eq, code_format_again_iff distinct some sound rfl,
      sources_formatted_letterClass full.le, List.forall_mem_singleton]
    exact Nat.not_le.mpr (size_letterClass_of_full full).2

end DataClass.Command
