import DataClass.Command.Invocation
import DataClass.Number.Decimal
namespace DataClass.Command

/-! Reading a command line.

A command line has an outer level and, behind the name of a command, the level of that command. Each
level takes options, flags and at most one file, in any order. An option or a flag may be given once
a level. The options of the pass are taken on both levels, and the inner one counts.
-/

/-- An option takes a value. -/
inductive OptionName where
  | marker
  | onConflict
  | maxRounds
  | lex
  | parse
deriving DecidableEq

def OptionName.spelling : OptionName → String
  | .marker => "marker"
  | .onConflict => "on-conflict"
  | .maxRounds => "max-rounds"
  | .lex => "lex"
  | .parse => "parse"

/-- A flag takes none. -/
inductive FlagName where
  | write
  | check
  | diff
deriving DecidableEq

def FlagName.spelling : FlagName → String
  | .write => "write"
  | .check => "check"
  | .diff => "diff"

inductive CommandName where
  | expand
  | lower
  | format
  | check
deriving DecidableEq

namespace CommandName

def all : List CommandName := [.expand, .lower, .format, .check]

def spelling : CommandName → String
  | .expand => "expand"
  | .lower => "emit-rust"
  | .format => "fmt"
  | .check => "check"

def ofSpelling? (spelling : String) : Option CommandName :=
  all.find? (·.spelling == spelling)

end CommandName

/-- What may be given at one level. -/
structure Level where
  options : List OptionName
  flags : List FlagName
  commands : List CommandName

namespace Level

def passOptions : List OptionName := [.marker, .onConflict, .maxRounds]

def outer : Level := ⟨passOptions ++ [.lex, .parse], [], CommandName.all⟩

def inner : CommandName → Level
  | .expand => ⟨passOptions, [.write], []⟩
  | .format => ⟨passOptions, [.check, .diff], []⟩
  | .lower | .check => ⟨passOptions, [], []⟩

/-- Commands come with words that tell about the program. -/
def isOuter (level : Level) : Bool := !level.commands.isEmpty

def option? (level : Level) (spelling : String) : Option OptionName :=
  level.options.find? (·.spelling == spelling)

def flag? (level : Level) (spelling : String) : Option FlagName :=
  level.flags.find? (·.spelling == spelling)

def command? (level : Level) (spelling : String) : Option CommandName :=
  level.commands.find? (·.spelling == spelling)

end Level

/-- What has been given at one level so far. -/
structure Given where
  marker : Option String
  policy : Option Accessor.ConflictPolicy
  maxRounds : Option Nat
  lexFile : Option String
  parseFile : Option String
  write : Bool
  check : Bool
  diff : Bool
  file : Option String
deriving DecidableEq

/-- A reading step; it fails when the reading ends early. -/
abbrev Reading (α : Type) := Except Halt α

/-- Fill a place that must be empty with a value that must be there. -/
def fill {α : Type} (place value : Option α) : Reading (Option α) :=
  match place, value with
  | none, some value => return some value
  | _, _ => throw .rejected

/-- Set a flag that must not be set. -/
def raise (flag : Bool) : Reading Bool := if flag then throw .rejected else return true

/-- A path is never empty. -/
def filePath? (text : String) : Option String := if text.isEmpty then none else some text

/-- A count in decimal digits, with or without a plus sign in front, below `2 ^ 64`. -/
def count? (text : String) : Option Nat :=
  let digits := match text.toList with
    | '+' :: rest => rest
    | chars => chars
  let value := digitsValue digits
  if !digits.isEmpty && digits.all Char.isDigit && value < Nat.pow 2 64 then some value else none

namespace Given

def nothing : Given := ⟨none, none, none, none, none, false, false, false, none⟩

def addOption (option : OptionName) (text : String) (given : Given) : Reading Given :=
  match option with
  | .marker => do return { given with marker := ← fill given.marker (some text) }
  | .onConflict => do
      let policy := (Accessor.ConflictPolicy.ofName text).toOption
      return { given with policy := ← fill given.policy policy }
  | .maxRounds => do return { given with maxRounds := ← fill given.maxRounds (count? text) }
  | .lex => do return { given with lexFile := ← fill given.lexFile (filePath? text) }
  | .parse => do return { given with parseFile := ← fill given.parseFile (filePath? text) }

def addFlag (flag : FlagName) (given : Given) : Reading Given :=
  match flag with
  | .write => do return { given with write := ← raise given.write }
  | .check => do return { given with check := ← raise given.check }
  | .diff => do return { given with diff := ← raise given.diff }

def addFile (text : String) (given : Given) : Reading Given := do
  return { given with file := ← fill given.file (filePath? text) }

/-- Take every word as a file. -/
def addFiles (given : Given) : List String → Reading Given
  | [] => return given
  | text :: rest => do addFiles (← given.addFile text) rest

end Given

/-- The form of a word. -/
inductive Word where
  /-- `--name`, with a value behind `=` or without one. -/
  | long (name : String) (value : Option String)
  /-- `-x`, whatever follows. -/
  | short (name : Char)
  /-- `--`, behind which every word is a file. -/
  | separator
  | plain

def Word.ofText (text : String) : Word :=
  match text.toList with
  | ['-', '-'] => .separator
  | '-' :: '-' :: rest =>
      let name := String.ofList (rest.takeWhile (· != '='))
      match rest.dropWhile (· != '=') with
      | [] => .long name none
      | _ :: value => .long name (some (String.ofList value))
  | '-' :: name :: _ => .short name
  | _ => .plain

/-- Whether a word can be the value of the option before it. -/
def isValue (text : String) : Bool :=
  match Word.ofText text with
  | .plain => true
  | _ => false

/-- What a word with one dash asks for. -/
def shortHalt (level : Level) (name : Char) : Halt :=
  if name = 'h' then .help
  else if name = 'V' && level.isOuter then .version
  else .rejected

/-- What a word with two dashes asks for when it is neither an option nor a flag. -/
def longHalt (level : Level) (name : String) (value : Option String) : Halt :=
  if value.isSome then .rejected
  else if name = "help" then .help
  else if name = "version" && level.isOuter then .version
  else .rejected

/-- What the word `help` asks for: it may be followed by the name of one command. -/
def helpHalt : List String → Halt
  | [] => .help
  | [name] => if name = "help" || (CommandName.ofSpelling? name).isSome then .help else .rejected
  | _ => .rejected

/-- Read one level, up to the name of a command and the words behind it. -/
def readLevel (level : Level) (given : Given) :
    List String → Reading (Given × Option (CommandName × List String))
  | [] => return (given, none)
  | text :: rest =>
      match Word.ofText text with
      | .separator => do return (← given.addFiles rest, none)
      | .short name => throw (shortHalt level name)
      | .long name value =>
          match level.option? name with
          | some option =>
              match value with
              | some value => do readLevel level (← given.addOption option value) rest
              | none =>
                  match rest with
                  | [] => throw .rejected
                  | value :: rest =>
                      if isValue value then do
                        readLevel level (← given.addOption option value) rest
                      else throw .rejected
          | none =>
              match level.flag? name, value with
              | some flag, none => do readLevel level (← given.addFlag flag) rest
              | some _, some _ => throw .rejected
              | none, value => throw (longHalt level name value)
      | .plain =>
          match level.command? text with
          | some command => return (given, some (command, rest))
          | none =>
              if level.isOuter && text = "help" then throw (helpHalt rest)
              else do readLevel level (← given.addFile text) rest

/-- The settings of the pass; the inner level counts before the outer one. -/
def settingsOf (outer inner : Given) : Accessor.Settings :=
  let standard := Accessor.Settings.standard
  let chosen : Accessor.Settings := { standard with
    marker := (inner.marker <|> outer.marker).getD standard.marker
    policy := (inner.policy <|> outer.policy).getD standard.policy }
  chosen.limitRounds ((inner.maxRounds <|> outer.maxRounds).getD standard.maxRounds)

/-- A file that has to be given. -/
def requiredFile (given : Given) : Reading String :=
  match given.file with
  | some file => return file
  | none => throw .rejected

/-- The task of a command. Formatting starts at the current directory unless a path is given. -/
def commandTask (command : CommandName) (given : Given) : Reading Task :=
  match command with
  | .expand => do return .expand (← requiredFile given) given.write
  | .lower => do return .lower (← requiredFile given)
  | .check => do return .check (← requiredFile given)
  | .format =>
      return .format (given.file.getD ".") ⟨given.check, given.diff⟩

/-- The task without a command: a named file is checked. -/
def plainTask (given : Given) : Task :=
  match given.file with
  | some file => .check file
  | none => .idle

/-- The outer level looks at a file by its tokens or its outline, or not by itself at all. -/
def inspection? (given : Given) : Reading (Option Task) :=
  match given.lexFile, given.parseFile, given.file with
  | none, none, _ => return none
  | _, _, some _ => throw .rejected
  | some file, _, none => return some (.listTokens file)
  | none, some file, none => return some (.outlineProgram file)

/-- Read a command line. -/
def invocation (words : List String) : Reading Invocation := do
  let (outer, command) ← readLevel .outer .nothing words
  let (inner, task) ←
    match command with
    | none => pure (.nothing, plainTask outer)
    | some (command, rest) => do
        let (inner, _) ← readLevel (.inner command) .nothing rest
        pure (inner, ← commandTask command inner)
  let task := (← inspection? outer).getD task
  return ⟨settingsOf outer inner, task⟩

end DataClass.Command
