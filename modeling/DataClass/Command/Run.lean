import DataClass.Accessor.Round
import DataClass.Command.Arguments
import DataClass.Command.Format
import DataClass.Lowering.Program
import DataClass.Outline.Program
namespace DataClass.Command

/-! Running a command line on a folder. -/

/-- What a run prints. -/
inductive Output where
  | text (text : String)
  | target (file : Lowering.TargetFile)
deriving DecidableEq

/-- What a run leaves behind. -/
structure Outcome where
  /-- Zero for success, one for failure, two for a command line that cannot be read. -/
  code : Nat
  output : Output
  /-- The lines of what is said about problems. -/
  messages : List String
  folder : Folder
deriving DecidableEq

namespace Outcome

def success (folder : Folder) (text : String) : Outcome := ⟨0, .text text, [], folder⟩

def failure (folder : Folder) (messages : List String) : Outcome := ⟨1, .text "", messages, folder⟩

end Outcome

/-- Why a task about one file fails. -/
inductive TaskFault where
  | unreadable (path : String) (fault : AccessFault)
  | faulty (path source : String) (faults : List Diagnostic)
  | notLowered (fault : Lowering.LoweringFault)
deriving DecidableEq

def TaskFault.messages : TaskFault → List String
  | .unreadable path fault => shownLines (fault.message path)
  | .faulty path source faults => Diagnostic.report path source faults
  | .notLowered fault => shownLines ("Code generation error: " ++ fault.message)

/-- A step of a task about one file. -/
abbrev Step (α : Type) := Except TaskFault α

def Step.outcome {α : Type} (folder : Folder) (step : Step α) (finish : α → Outcome) : Outcome :=
  match step with
  | .ok value => finish value
  | .error fault => .failure folder fault.messages

def readSource (folder : Folder) (path : String) : Step (Address × String) :=
  (folder.read path).mapError (.unreadable path)

/-- Go on with a value, unless the source has faults. -/
def orFaulty {α : Type} (path source : String) (result : Except (List Diagnostic) α) : Step α :=
  result.mapError (.faulty path source)

/-- A file that has been expanded without an error. -/
structure Expansion where
  address : Address
  source : String
  run : Accessor.Run

/-- Expand a file. Of what the pass reports, only errors are said, and any of them is a failure. -/
def expandFile (settings : Accessor.Settings) (folder : Folder) (path : String) :
    Step Expansion := do
  let (address, source) ← readSource folder path
  let run ← orFaulty path source (Accessor.expand settings source)
  match run.diagnostics.filter (·.isError) with
  | [] => return ⟨address, source, run⟩
  | errors => throw (.faulty path source errors)

def tokensOf (folder : Folder) (path : String) : Step (List Token) := do
  let (_, source) ← readSource folder path
  orFaulty path source (Token.scan source)

def programOf (folder : Folder) (path : String) : Step Program := do
  let (_, source) ← readSource folder path
  orFaulty path source (Program.ofSource source)

def checkedText (path : String) (outcome : Accessor.RunOutcome) : String :=
  "✓ " ++ path ++ ": " ++ toString outcome.typesProcessed ++ " type(s) expanded, " ++
    toString outcome.methodsAdded ++ " accessor(s) synthesized\n"

def expandedText (path : String) (outcome : Accessor.RunOutcome) : String :=
  "Expanded: " ++ path ++ " (" ++ toString outcome.methodsAdded ++ " accessor(s) added)\n"

/-- Write an expanded file, unless it is written like that already. -/
def writeExpansion (folder : Folder) (path : String) (expansion : Expansion) : Outcome :=
  let text := expansion.run.program.text .standard
  if text = expansion.source then .success folder ("✓ " ++ path ++ " already expanded\n")
  else
    .success (folder.write expansion.address text) (expandedText path expansion.run.outcome)

def lowerFile (settings : Accessor.Settings) (folder : Folder) (path : String) :
    Step Lowering.TargetFile := do
  let expansion ← expandFile settings folder path
  (Lowering.lower .standard expansion.run.program).mapError .notLowered

/-- Format the files that a path stands for. -/
def formatFiles (folder : Folder) (path : String) (mode : FormatMode) : Outcome :=
  let survey := FormatSurvey.ofSources (folder.sources path)
  let text := survey.text mode
  let code := if survey.faultCount = 0 then 0 else 1
  if survey.isEmpty then .failure folder ["No .dg files found"]
  else if mode.writes then
    ⟨code, .text (text ++ survey.writtenText), survey.messages, survey.store folder⟩
  else if survey.pendingCount = 0 then
    ⟨code, .text (text ++ survey.settledText), survey.messages, folder⟩
  else ⟨1, .text text, survey.messages ++ survey.pendingMessages mode, folder⟩

/-- Carry out a task. -/
def perform (folder : Folder) (invocation : Invocation) : Outcome :=
  let settings := invocation.settings
  match invocation.task with
  | .listTokens path =>
      (tokensOf folder path).outcome folder fun tokens => .success folder (Token.listing tokens)
  | .outlineProgram path =>
      (programOf folder path).outcome folder fun program =>
        .success folder program.outline.text
  | .check path =>
      (expandFile settings folder path).outcome folder fun expansion =>
        .success folder (checkedText path expansion.run.outcome)
  | .expand path write =>
      (expandFile settings folder path).outcome folder fun expansion =>
        if write then writeExpansion folder path expansion
        else .success folder (expansion.run.program.text .standard)
  | .lower path =>
      (lowerFile settings folder path).outcome folder fun file => ⟨0, .target file, [], folder⟩
  | .format path mode => formatFiles folder path mode
  | .idle => .failure folder ["No input file given; run 'datagen --help' for usage"]

def versionText : String := "datagen 0.1.0-alpha.4\n"

def usage : List String :=
  ["Usage: datagen [OPTIONS] [FILE]",
    "       datagen [OPTIONS] expand [--write] FILE",
    "       datagen [OPTIONS] emit-rust FILE",
    "       datagen [OPTIONS] fmt [--check] [--diff] [PATH]",
    "       datagen [OPTIONS] check FILE",
    "       datagen --lex FILE | --parse FILE | --version | --help",
    "",
    "Options:",
    "  --marker NAME         the tag that asks for accessors [default: Data]",
    "  --on-conflict POLICY  error or skip, when the name of an accessor is taken [default: error]",
    "  --max-rounds N        the most rounds that may run [default: 8]"]

/-- Answer a command line that names no task. -/
def Halt.outcome (folder : Folder) : Halt → Outcome
  | .rejected => ⟨2, .text "", "error: the command line cannot be read" :: "" :: usage, folder⟩
  | .version => .success folder versionText
  | .help => .success folder (String.join (usage.map (· ++ "\n")))

/-- Run a command line on a folder. -/
def execute (folder : Folder) (words : List String) : Outcome :=
  match invocation words with
  | .error halt => halt.outcome folder
  | .ok invocation => perform folder invocation

end DataClass.Command
