import DataClass.Accessor.Settings
namespace DataClass.Command

/-! What a command line can ask for. -/

/-- How files are formatted: what is said about a file, and whether it is changed. -/
structure FormatMode where
  /-- Name the files that would change, and leave them as they are. -/
  check : Bool
  /-- Show what would change, and leave the files as they are. -/
  diff : Bool
deriving DecidableEq

/-- Whether files may be changed. -/
def FormatMode.writes (mode : FormatMode) : Bool := !mode.check && !mode.diff

inductive Task where
  | listTokens (file : String)
  | outlineProgram (file : String)
  | check (file : String)
  | expand (file : String) (write : Bool)
  | lower (file : String)
  | format (path : String) (mode : FormatMode)
  /-- No file was named. -/
  | idle
deriving DecidableEq

/-- The file or directory that a task is about. -/
def Task.path? : Task → Option String
  | .listTokens file | .outlineProgram file | .check file | .expand file _ | .lower file
  | .format file _ => some file
  | .idle => none

structure Invocation where
  settings : Accessor.Settings
  task : Task
deriving DecidableEq

/-- What ends the reading of a command line before it names a task. -/
inductive Halt where
  | rejected
  | version
  | help
deriving DecidableEq

end DataClass.Command
