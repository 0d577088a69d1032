import DataClass.Diagnostic.Basic
import DataClass.Text.Line
namespace DataClass.Diagnostic

/-! Reports: messages written out with their place in the source. -/

def symbol : Severity → String
  | .error | .syntaxError | .synthesisError => "×"
  | .warning => "⚠"
  | .note => "☞"

/-- What is said below the marked text. -/
def label : Severity → String
  | .note => "label here"
  | _ => "label error occurred here"

/-- The first line of a message, behind the symbol of its severity. -/
def headlineShown (diagnostic : Diagnostic) : String :=
  (shownLines ("  " ++ symbol diagnostic.severity ++ " " ++ diagnostic.headline)).head?.getD ""

/-- Notes, each marked as one, and then hints. The first line carries the word `help`, and the ones
below it stand as far to the right. -/
def helpLines (diagnostic : Diagnostic) : List String :=
  match diagnostic.notes.map ("note: " ++ ·) ++ diagnostic.hints with
  | [] => []
  | texts =>
      let lines := texts.flatMap fun text => (pieces text.toList).map String.ofList
      shownLines ("  help: " ++ "\n        ".intercalate lines)

/-- The lines that report one message. The place is the start of its range, moved back into the
source; a place at the very end has no text to mark. -/
def reportLines (file source : String) (diagnostic : Diagnostic) : List String :=
  let start := min diagnostic.span.start (byteCount source.toList)
  let position := LinePosition.ofOffset source start
  let place := "at " ++ file ++ ":" ++ toString position.line ++ ":" ++ toString position.column
  let mark := if start < byteCount source.toList then [label diagnostic.severity] else []
  diagnostic.headlineShown :: place :: mark ++ diagnostic.helpLines

/-- The lines that report several messages, with an empty line between two of them. -/
def separatedLines (file source : String) : List Diagnostic → List String
  | [] => []
  | [diagnostic] => diagnostic.reportLines file source
  | diagnostic :: rest =>
      diagnostic.reportLines file source ++ "" :: separatedLines file source rest

/-- A report of several messages. It does not end in empty lines. -/
def report (file source : String) (diagnostics : List Diagnostic) : List String :=
  dropTrailing String.isEmpty (separatedLines file source diagnostics)

end DataClass.Diagnostic
