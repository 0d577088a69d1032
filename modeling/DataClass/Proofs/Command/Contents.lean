import Mathlib
import DataClass.Command.Folder
namespace DataClass.Command

/-! Folders that differ in the contents of their files only. What a path leads to, and which source
files it stands for, is the same in both, but for the contents. -/

variable {change : Address → Content → Content} {folder : Folder} {address : Address} {path : String}

namespace Entry

/-- What stands at an address, if a file there has another content. -/
def rewrite (change : Content → Content) : Entry → Entry
  | .file content => .file (change content)
  | .directory => .directory

end Entry

namespace Content

theorem read_eq_ok_iff {content : Content} {text : String} :
    content.read = .ok text ↔ content.size ≤ sizeLimit ∧ content.text = some text := by
  rw [read]
  split
  · next large => simp [Nat.not_le.mpr large]
  · next fits =>
    cases content.text <;> simp [Nat.not_lt.mp fits, pure, Except.pure]

end Content

namespace Folder

/-- The folder with another content in every file. -/
def rewrite (change : Address → Content → Content) (folder : Folder) : Folder :=
  { folder with files := folder.files.map fun file =>
      { file with content := change file.address file.content } }

/-- The change that writes a text to one address. -/
def writing (address : Address) (text : String) (other : Address) (content : Content) : Content :=
  if other = address then .ofText text else content

@[simp]
theorem writing_self (text : String) (content : Content) :
    writing address text address content = .ofText text := if_pos rfl

theorem writing_of_ne {other : Address} (apart : other ≠ address) (text : String) :
    writing address text other = fun content => content := by
  funext content
  exact if_neg apart

theorem write_eq_rewrite (folder : Folder) (address : Address) (text : String) :
    folder.write address text = folder.rewrite (writing address text) := by
  simp only [write, rewrite, writing, beq_iff_eq]
  congr 2
  funext file
  split <;> rfl

theorem rewrite_rewrite (first second : Address → Content → Content) (folder : Folder) :
    (folder.rewrite first).rewrite second =
      folder.rewrite fun address content => second address (first address content) := by
  simp [rewrite]

theorem rewrite_of_forall (same : ∀ file ∈ folder.files,
    change file.address file.content = file.content) : folder.rewrite change = folder := by
  have files : (folder.files.map fun file : File =>
      { file with content := change file.address file.content }) = folder.files.map id :=
    List.map_congr_left fun file inside => by rw [same file inside, id]
  rw [rewrite, files, List.map_id]

theorem content?_rewrite :
    (folder.rewrite change).content? address = (folder.content? address).map (change address) := by
  simp only [content?, rewrite, List.find?_map, Function.comp_def]
  cases found : folder.files.find? (·.address == address) with
  | none => rfl
  | some file =>
      obtain rfl : file.address = address := by simpa using List.find?_some found
      rfl

theorem content?_write {content : Content} (there : folder.content? address = some content)
    (text : String) : (folder.write address text).content? address = some (.ofText text) := by
  rw [write_eq_rewrite, content?_rewrite, there, Option.map_some, writing_self]

/-- Two folders differ in one file at most, which holds a text in the second of them. -/
structure Stored (before after : Folder) (address : Address) (text : String) : Prop where
  held : (after.content? address).bind (·.text) = some text
  others : ∀ other, other ≠ address → after.content? other = before.content? other
  directories : after.directories = before.directories

theorem stored_write {content : Content} (there : folder.content? address = some content)
    (text : String) : Stored folder (folder.write address text) address text where
  held := by
    rw [content?_write there]
    rfl
  others other apart := by
    rw [write_eq_rewrite, content?_rewrite, writing_of_ne apart, Option.map_id']
  directories := rfl

theorem entry?_rewrite :
    Folder.entry? (folder.rewrite change) address =
      ( folder.entry? address).map (Entry.rewrite (change address)) := by
  have directory : (folder.rewrite change).isDirectory address = folder.isDirectory address := rfl
  unfold entry?
  rw [content?_rewrite, directory]
  cases folder.content? address with
  | some content => rfl
  | none => cases folder.isDirectory address <;> rfl

theorem follow_rewrite (names : List String) :
    (folder.rewrite change).follow address names = folder.follow address names := by
  induction names generalizing address with
  | nil => rfl
  | cons name rest ih =>
      simp only [follow, entry?_rewrite, ih]
      cases folder.entry? address with
      | none => rfl
      | some entry => cases entry <;> rfl

theorem locate_eq (folder : Folder) (path : String) : folder.locate path =
    if pathLimit < path.utf8ByteSize then .error .nameTooLong
    else (folder.follow (Address.start path).1 (Address.start path).2).bind fun address =>
      match folder.entry? address with
      | some entry => .ok (address, entry)
      | none => .error .missing := by
  simp only [locate]
  split
  · rfl
  · cases folder.follow (Address.start path).1 (Address.start path).2 with
    | error fault => rfl
    | ok address =>
        simp only [bind, Except.bind]
        cases folder.entry? address <;> rfl

theorem locate_rewrite :
    (folder.rewrite change).locate path =
      (folder.locate path).map fun found => (found.1, found.2.rewrite (change found.1)) := by
  rw [locate_eq, locate_eq, follow_rewrite]
  split
  · rfl
  · cases folder.follow (Address.start path).1 (Address.start path).2 with
    | error fault => rfl
    | ok address =>
        simp only [Except.bind, entry?_rewrite]
        cases folder.entry? address <;> rfl

theorem locate_write {content : Content} (located : folder.locate path = .ok (address, .file content))
    (text : String) :
    (folder.write address text).locate path = .ok (address, .file (.ofText text)) := by
  rw [write_eq_rewrite, locate_rewrite, located]
  simp only [Except.map, Entry.rewrite, writing_self]

theorem entry?_of_locate {entry : Entry} (found : folder.locate path = .ok (address, entry)) :
    folder.entry? address = some entry := by
  rw [locate_eq] at found
  split at found
  · cases found
  · cases way : folder.follow (Address.start path).1 (Address.start path).2 with
    | error fault => simp [way, Except.bind] at found
    | ok place =>
        simp only [way, Except.bind] at found
        split at found
        · next there =>
          obtain ⟨rfl, rfl⟩ := Prod.mk.inj (Except.ok.inj found)
          exact there
        · cases found

theorem content?_of_locate {content : Content}
    (found : folder.locate path = .ok (address, .file content)) :
    folder.content? address = some content := by
  have there := entry?_of_locate found
  unfold entry? at there
  split at there
  · next held =>
    rw [held]
    exact congrArg some (Entry.file.inj (Option.some.inj there))
  · split at there <;> cases there

/-- A file is read if its path leads to it and its content can be read. -/
theorem read_eq_ok_iff {source : String} :
    folder.read path = .ok (address, source) ↔
      ∃ content, folder.locate path = .ok (address, .file content) ∧ content.read = .ok source := by
  rw [read]
  cases folder.locate path with
  | error fault => simp [bind, Except.bind]
  | ok found =>
      obtain ⟨place, entry⟩ := found
      cases entry with
      | directory => simp [bind, Except.bind]
      | file content =>
          cases outcome : content.read with
          | error fault => simp [outcome, bind, Except.bind]
          | ok text => simp [outcome, bind, Except.bind, pure, Except.pure, and_assoc]

theorem filesBelow_rewrite :
    (folder.rewrite change).filesBelow address = (folder.filesBelow address).map fun entry =>
      (entry.1, { entry.2 with content := change entry.2.address entry.2.content }) := by
  let alter (entry : List String × File) : List String × File :=
    (entry.1, { entry.2 with content := change entry.2.address entry.2.content })
  let ordered (left right : List String × File) : Bool := !decide (right.1 < left.1)
  let ways (files : List File) : List (List String × File) :=
    files.filterMap fun file => (wayFrom? address file.address).map fun way => (way, file)
  have found : ways (folder.rewrite change).files = (ways folder.files).map alter := by
    simp only [ways, alter, rewrite, List.filterMap_map, List.map_filterMap, Option.map_map,
      Function.comp_def]
  have kept (entries : List (List String × File)) :
      (entries.map alter).filter (isSourceWay ·.1) = (entries.filter (isSourceWay ·.1)).map alter :=
    List.filter_map
  -- The order is one of ways, so it does not look at what `alter` changes.
  calc (folder.rewrite change).filesBelow address
    _ = ((ways (folder.rewrite change).files).filter (isSourceWay ·.1)).mergeSort ordered := rfl
    _ = (((ways folder.files).filter (isSourceWay ·.1)).map alter).mergeSort ordered := by
      rw [found, kept]
    _ = (folder.filesBelow address).map alter :=
      (List.map_mergeSort (f := alter) fun _ _ _ _ => rfl).symm

/-- The source files that a path stands for are those from before, with their new contents. -/
theorem sources_rewrite :
    (folder.rewrite change).sources path = (folder.sources path).map fun source =>
      { source with content := change source.address source.content } := by
  rw [sources, sources, locate_rewrite]
  cases folder.locate path with
  | error fault => rfl
  | ok found =>
      obtain ⟨address, entry⟩ := found
      cases entry with
      | directory =>
          simp only [Except.map, Entry.rewrite, filesBelow_rewrite, List.map_map]
          rfl
      | file content =>
          simp only [Except.map, Entry.rewrite]
          split <;> rfl

/-- No two files stand at the same address. -/
def Distinct (folder : Folder) : Prop := (folder.files.map (·.address)).Nodup

theorem content?_of_mem (distinct : folder.Distinct) {file : File} (inside : file ∈ folder.files) :
    folder.content? file.address = some file.content := by
  cases found : folder.files.find? (·.address == file.address) with
  | none => simpa using List.find?_eq_none.mp found file inside
  | some other =>
      have place : other.address = file.address := by simpa using List.find?_some found
      obtain rfl : other = file :=
        List.inj_on_of_nodup_map distinct (List.mem_of_find?_eq_some found) inside place
      rw [content?, found, Option.map_some]

/-- A source file is listed with the content that stands at its address. -/
theorem content?_of_mem_sources (distinct : folder.Distinct) {source : Source}
    (listed : source ∈ folder.sources path) :
    folder.content? source.address = some source.content := by
  rw [sources] at listed
  split at listed
  · cases listed
  · next address content found =>
    split at listed
    · obtain rfl := List.mem_singleton.mp listed
      exact content?_of_locate found
    · cases listed
  · obtain ⟨⟨way, file⟩, below, rfl⟩ := List.mem_map.mp listed
    have inside : file ∈ folder.files := by
      rw [filesBelow, List.mem_mergeSort, List.mem_filter, List.mem_filterMap] at below
      obtain ⟨⟨_, held, same⟩, _⟩ := below
      obtain ⟨_, _, same⟩ := Option.map_eq_some_iff.mp same
      obtain rfl := congrArg Prod.snd same
      exact held
    exact content?_of_mem distinct inside

/-- A folder with a single file. -/
def single (text : String) : Folder := .ofFiles [⟨["a.dg"], .ofText text⟩]

theorem distinct_single (text : String) : (single text).Distinct := List.nodup_singleton _

theorem locate_single (text : String) :
    (single text).locate "a.dg" = .ok (["a.dg"], .file (.ofText text)) := by
  have start : Address.start "a.dg" = ([], ["a.dg"]) := by cbv
  have short : ¬ pathLimit < "a.dg".utf8ByteSize := by decide
  rw [locate_eq, if_neg short, start]
  rfl

theorem read_single {text : String} (read : (Content.ofText text).read = .ok text) :
    (single text).read "a.dg" = .ok (["a.dg"], text) :=
  read_eq_ok_iff.mpr ⟨_, locate_single text, read⟩

theorem sources_single (text : String) :
    (single text).sources "a.dg" = [⟨"a.dg", ["a.dg"], .ofText text⟩] := by
  have name : isSourceName "a.dg" = true := by cbv
  rw [sources, locate_single]
  simp [name]

end Folder

end DataClass.Command
