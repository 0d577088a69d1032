import DataClass.Diagnostic.Basic
namespace DataClass.Diagnostic

/-! A sink that keeps no message and only counts the errors among them. -/

structure Counter where
  errors : Nat
deriving DecidableEq

namespace Counter

def empty : Counter := ⟨0⟩

def report (counter : Counter) (diagnostic : Diagnostic) : Counter :=
  if diagnostic.isError then ⟨counter.errors + 1⟩ else counter

def reportAll (counter : Counter) (diagnostics : List Diagnostic) : Counter :=
  diagnostics.foldl report counter

/-- The counts after each of several messages. -/
def history (counter : Counter) : List Diagnostic → List Nat
  | [] => []
  | diagnostic :: rest =>
      (counter.report diagnostic).errors :: history (counter.report diagnostic) rest

end Counter

/-- A message that only informs. -/
def informing (message : String) (span : Span) : Diagnostic := ⟨.note, message, span, [], []⟩

end DataClass.Diagnostic
