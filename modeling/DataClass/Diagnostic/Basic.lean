import DataClass.Text.Span
namespace DataClass

/-! Messages about a program, each tied to a range of its text. -/

inductive Severity where
  | error
  | syntaxError
  | synthesisError
  | warning
  | note
deriving DecidableEq

namespace Severity

def name : Severity → String
  | .error => "error"
  | .syntaxError => "syntax error"
  | .synthesisError => "synthesis error"
  | .warning => "warning"
  | .note => "note"

def all : List Severity := [.error, .syntaxError, .synthesisError, .warning, .note]

def ofName? (name : String) : Option Severity := all.find? (·.name == name)

/-- Whether the message makes the run fail. -/
def isError : Severity → Bool
  | .error | .syntaxError | .synthesisError => true
  | .warning | .note => false

end Severity

/-- A message with its place, and with notes and hints that may help. -/
structure Diagnostic where
  severity : Severity
  message : String
  span : Span
  notes : List String
  hints : List String
deriving DecidableEq

namespace Diagnostic

def isError (diagnostic : Diagnostic) : Bool := diagnostic.severity.isError

/-- The message behind the name of its severity. -/
def headline (diagnostic : Diagnostic) : String :=
  diagnostic.severity.name ++ ": " ++ diagnostic.message

/-- The same message about a text that has `offset` more bytes in front. -/
def shift (offset : Nat) (diagnostic : Diagnostic) : Diagnostic :=
  { diagnostic with span := diagnostic.span.shift offset }

/-- The number of messages that make the run fail. -/
def errorCount (diagnostics : List Diagnostic) : Nat := diagnostics.countP isError

/-- A message about a text that is not a program. -/
def syntaxFault (message : String) (span : Span) : Diagnostic :=
  ⟨.syntaxError, message, span, [], []⟩

/-- Give a hint about what to do. -/
def withHint (diagnostic : Diagnostic) (hint : String) : Diagnostic :=
  { diagnostic with hints := diagnostic.hints ++ [hint] }

end Diagnostic

end DataClass
