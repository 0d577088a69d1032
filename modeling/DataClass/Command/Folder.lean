namespace DataClass.Command

/-! Files and directories by their paths.

An address is a path without detours: the names from the current directory down. Steps above the
current directory stay in front as `..`, and an absolute address begins with the empty name.
-/

/-- What a file holds: its size in bytes, and its text if its bytes are one. -/
structure Content where
  size : Nat
  text : Option String
deriving DecidableEq

namespace Content

/-- The content of a file that holds a text. -/
def ofText (text : String) : Content := ⟨text.utf8ByteSize, some text⟩

end Content

abbrev Address := List String

namespace Address

/-- The directory that holds an address. -/
def parent (address : Address) : Address :=
  if address.all (· == "..") then address ++ [".."]
  else if address == [""] then [""]
  else address.dropLast

/-- The addresses on the way to an address, from the outermost on. -/
def above (address : Address) : List Address := (List.range address.length).map address.take

/-- The address that a name leads to from a directory. -/
def step (address : Address) (name : String) : Address :=
  if name = "" || name = "." then address
  else if name = ".." then address.parent
  else address ++ [name]

/-- The address and the names of a path that remain to be followed from there. -/
def start (path : String) : Address × List String :=
  match path.splitOn "/" with
  | "" :: rest => ([""], rest)
  | names => ([], names)

end Address

structure File where
  address : Address
  content : Content
deriving DecidableEq

structure Folder where
  files : List File
  directories : List Address
deriving DecidableEq

/-- Why a file cannot be read. -/
inductive AccessFault where
  | missing
  /-- The path leads through a file. -/
  | notDirectory
  | nameTooLong
  | tooLarge (size : Nat)
  | isDirectory
  | notText
deriving DecidableEq

/-- The most bytes that a file may have. -/
def sizeLimit : Nat := 10 * 1024 * 1024

/-- The most bytes that a name in a path may have. -/
def nameLimit : Nat := 255

/-- The most bytes that a path may have. -/
def pathLimit : Nat := 4095

/-- The words about a file that cannot be read. -/
def AccessFault.message (path : String) : AccessFault → String
  | .missing =>
      "Cannot access file '" ++ path ++ "': No such file or directory (os error 2)"
  | .notDirectory => "Cannot access file '" ++ path ++ "': Not a directory (os error 20)"
  | .nameTooLong => "Cannot access file '" ++ path ++ "': File name too long (os error 36)"
  | .tooLarge size =>
      "Source file '" ++ path ++ "' is too large (" ++ toString size ++ " bytes, max " ++
        toString sizeLimit ++ " bytes)"
  | .isDirectory => "Error reading file '" ++ path ++ "': Is a directory (os error 21)"
  | .notText => "Error reading file '" ++ path ++ "': stream did not contain valid UTF-8"

/-- The text of a content that is neither too large nor something else than text. -/
def Content.read (content : Content) : Except AccessFault String :=
  if sizeLimit < content.size then throw (.tooLarge content.size)
  else
    match content.text with
    | some text => return text
    | none => throw .notText

/-- What stands at an address. -/
inductive Entry where
  | file (content : Content)
  | directory

namespace Folder

def empty : Folder := ⟨[], []⟩

/-- The folder that holds some files, and no directories but those that the files need. -/
def ofFiles (files : List File) : Folder :=
  ⟨files, (files.flatMap fun file => file.address.above).eraseDups⟩

def content? (folder : Folder) (address : Address) : Option Content :=
  (folder.files.find? (·.address == address)).map (·.content)

/-- The current directory, the ones above it and the root are there always. -/
def isDirectory (folder : Folder) (address : Address) : Bool :=
  address.all (· == "..") || address == [""] || folder.directories.contains address

def entry? (folder : Folder) (address : Address) : Option Entry :=
  match folder.content? address with
  | some content => some (.file content)
  | none => if folder.isDirectory address then some .directory else none

/-- Go on from an address, which has to be a directory, through the names of a path. -/
def follow (folder : Folder) (address : Address) : List String → Except AccessFault Address
  | [] => return address
  | name :: rest =>
      match folder.entry? address with
      | none => throw .missing
      | some (.file _) => throw .notDirectory
      | some .directory =>
          if nameLimit < name.utf8ByteSize then throw .nameTooLong
          else follow folder (address.step name) rest

/-- The address that a path leads to, if something is there. -/
def locate (folder : Folder) (path : String) : Except AccessFault (Address × Entry) := do
  let (start, names) := Address.start path
  if pathLimit < path.utf8ByteSize then throw .nameTooLong
  let address ← folder.follow start names
  match folder.entry? address with
  | some entry => return (address, entry)
  | none => throw .missing

/-- Read a file by its path. -/
def read (folder : Folder) (path : String) : Except AccessFault (Address × String) := do
  match ← folder.locate path with
  | (_, .directory) => throw .isDirectory
  | (address, .file content) => return (address, ← content.read)

/-- Replace the content of a file. -/
def write (folder : Folder) (address : Address) (text : String) : Folder :=
  { folder with files := folder.files.map fun file =>
      if file.address == address then { file with content := .ofText text } else file }

/-- Source files end in `.dg`, with a name in front. -/
def isSourceName (name : String) : Bool := name.endsWith ".dg" && 3 < name.length

/-- Hidden directories and directories of generated files are passed over. -/
def isSearched (name : String) : Bool :=
  !name.startsWith "." && name != "target" && name != "node_modules"

/-- Whether the way from a directory to a file leads to a source file that is looked at. -/
def isSourceWay (way : List String) : Bool :=
  match way.getLast? with
  | some name => isSourceName name && way.dropLast.all isSearched
  | none => false

/-- The way from an address down to another one. -/
def wayFrom? (address inner : Address) : Option (List String) :=
  if address.isPrefixOf inner then some (inner.drop address.length) else none

/-- A source file with the path that is shown for it. -/
structure Source where
  path : String
  address : Address
  content : Content
deriving DecidableEq

/-- A path below another path. -/
def below (path : String) (way : List String) : String :=
  path ++ (if path.endsWith "/" then "" else "/") ++ "/".intercalate way

/-- The source files below an address and the ways to them, in the order of the names on the way. -/
def filesBelow (folder : Folder) (address : Address) : List (List String × File) :=
  let found := folder.files.filterMap fun file =>
    (wayFrom? address file.address).map fun way => (way, file)
  (found.filter fun entry => isSourceWay entry.1).mergeSort
    fun left right => !decide (right.1 < left.1)

/-- The source files that a path stands for: the file itself, or all files of a directory. -/
def sources (folder : Folder) (path : String) : List Source :=
  match folder.locate path with
  | .error _ => []
  | .ok (address, .file content) =>
      if isSourceName (address.getLast?.getD "") then [⟨path, address, content⟩] else []
  | .ok (address, .directory) =>
      (folder.filesBelow address).map fun (way, file) =>
        ⟨below path way, file.address, file.content⟩

end Folder

end DataClass.Command
