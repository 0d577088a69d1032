import DataClass.Command.Folder
import DataClass.Command.Invocation
import DataClass.Diagnostic.Report
import DataClass.Layout.Program
namespace DataClass.Command

/-! Formatting files.

Every file is looked at on its own and found to be in one of four states. What is printed, what is
stored and what is counted follows from these states.
-/

inductive FormatState where
  | unreadable (fault : AccessFault)
  | faulty (source : String) (faults : List Diagnostic)
  | settled
  | pending (source formatted : String)
deriving DecidableEq

namespace FormatState

/-- The state of a source text. -/
def ofSource (source : String) : FormatState :=
  match Layout.format .standard source with
  | .error faults => .faulty source faults
  | .ok text => if source = text then .settled else .pending source text

/-- The state of what a file holds. -/
def ofContent (content : Content) : FormatState :=
  match content.read with
  | .error fault => .unreadable fault
  | .ok source => .ofSource source

def isFault : FormatState → Bool
  | .unreadable _ | .faulty _ _ => true
  | .settled | .pending _ _ => false

def isPending : FormatState → Bool
  | .pending _ _ => true
  | _ => false

/-- What is said about a file that has no formatted text. -/
def messages (path : String) : FormatState → List String
  | .unreadable fault => shownLines (fault.message path)
  | .faulty source faults => Diagnostic.report path source faults
  | .settled | .pending _ _ => []

/-- What is printed about a file that is not formatted. -/
def text (mode : FormatMode) (path : String) : FormatState → String
  | .pending source formatted =>
      (if mode.diff then "--- " ++ path ++ "\n" ++ lineDifference source formatted ++ "\n" else "") ++
      (if mode.check then "Would reformat: " ++ path ++ "\n" else "") ++
      (if mode.writes then "Formatted: " ++ path ++ "\n" else "")
  | _ => ""

end FormatState

/-- A source file and its state. -/
structure FormatEntry where
  path : String
  address : Address
  state : FormatState
deriving DecidableEq

def FormatEntry.ofSource (source : Folder.Source) : FormatEntry :=
  ⟨source.path, source.address, .ofContent source.content⟩

/-- All source files that a path stands for, and their states. -/
abbrev FormatSurvey := List FormatEntry

namespace FormatSurvey

def ofSources (sources : List Folder.Source) : FormatSurvey := sources.map FormatEntry.ofSource

def faultCount (survey : FormatSurvey) : Nat := survey.countP (·.state.isFault)

def pendingCount (survey : FormatSurvey) : Nat := survey.countP (·.state.isPending)

/-- What is said about the files, one after the other. -/
def messages (survey : FormatSurvey) : List String :=
  survey.flatMap fun entry => entry.state.messages entry.path

/-- What is printed about the files, one after the other. -/
def text (mode : FormatMode) (survey : FormatSurvey) : String :=
  String.join (survey.map fun entry => entry.state.text mode entry.path)

/-- Store the formatted text of the files that are not formatted. -/
def store (folder : Folder) : FormatSurvey → Folder
  | [] => folder
  | entry :: rest =>
      match entry.state with
      | .pending _ formatted => store (folder.write entry.address formatted) rest
      | _ => store folder rest

/-- What is said at the end of a run that stores nothing, when files are not formatted. The number
is the number of all files. -/
def pendingMessages (mode : FormatMode) (survey : FormatSurvey) : List String :=
  ["", toString survey.length ++ " file(s) " ++
    if mode.diff then "need formatting" else "would be reformatted"]

/-- What is printed at the end of a run that stores nothing, when no file has to change. -/
def settledText (survey : FormatSurvey) : String :=
  "✓ " ++ toString survey.length ++ " file(s) already formatted\n"

/-- What is printed at the end of a run that stores files. -/
def writtenText (survey : FormatSurvey) : String :=
  "\n✓ " ++ toString survey.pendingCount ++ " file(s) formatted, " ++
    toString survey.faultCount ++ " error(s)\n"

end FormatSurvey

end DataClass.Command
