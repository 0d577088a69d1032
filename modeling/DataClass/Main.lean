import DataClass.Command.Run
import DataClass.Lowering.Text
namespace DataClass.Command

/-! The program: load what a command line is about, run it, and carry out its outcome. -/

/-- The place of an address on the disk. -/
def diskPath (address : Address) := show IO _ from do
  let here ← IO.currentDir
  return address.foldl (fun path name => path / (if name = "" then "/" else name)) here

/-- Load what stands at one address. -/
def loadEntry (folder : Folder) (address : Address) : IO Folder := do
  let path ← diskPath address
  if ← path.isDir then
    return { folder with directories := address :: folder.directories }
  else if ← path.pathExists then
    let size := (← path.metadata).byteSize.toNat
    let text ←
      if size ≤ sizeLimit then pure (String.fromUTF8? (← IO.FS.readBinFile path)) else pure none
    return { folder with files := ⟨address, ⟨size, text⟩⟩ :: folder.files }
  else return folder

/-- Load what a path passes on its way. -/
def loadWay (folder : Folder) (address : Address) : List String → IO Folder
  | [] => return folder
  | name :: rest => do
      let next := address.step name
      loadWay (← loadEntry folder next) next rest

/-- Load the source files below a directory. -/
partial def loadBelow (folder : Folder) (address : Address) : IO Folder := do
  let mut folder := folder
  for entry in ← (← diskPath address).readDir do
    let inner := address ++ [entry.fileName]
    if ← entry.path.isDir then
      if Folder.isSearched entry.fileName then
        folder ← loadBelow (← loadEntry folder inner) inner
    else if Folder.isSourceName entry.fileName then
      folder ← loadEntry folder inner
  return folder

/-- Load what a command line is about. -/
def loadFolder (words : List String) : IO Folder := do
  match invocation words with
  | .error _ => return .empty
  | .ok ⟨_, task⟩ =>
      match task.path? with
      | none => return .empty
      | some path =>
          let (address, names) := Address.start path
          let folder ← loadWay .empty address names
          match task, folder.locate path with
          | .format _ _, .ok (address, .directory) => loadBelow folder address
          | _, _ => return folder

/-- Store the files whose content has changed. -/
def saveChanges (before after : Folder) : IO Unit :=
  for (old, new) in before.files.zip after.files do
    if let some text := new.content.text then
      if old.content.text != some text then
        IO.FS.writeFile (← diskPath new.address) text

def Output.print : Output → IO Unit
  | .text printed => IO.print printed
  | .target file => IO.print file.text

end DataClass.Command

open DataClass.Command in
/-- Run the command line that the program was started with. -/
def main (words : List String) : IO UInt32 := do
  let folder ← loadFolder words
  let outcome := execute folder words
  saveChanges folder outcome.folder
  outcome.output.print
  for line in outcome.messages do
    IO.eprintln line
  return outcome.code.toUInt32
