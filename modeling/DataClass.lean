import DataClass.Accessor.Pair
import DataClass.Accessor.Plan
import DataClass.Accessor.Round
import DataClass.Accessor.Settings
import DataClass.Accessor.Tagged
import DataClass.Command.Arguments
import DataClass.Command.Folder
import DataClass.Command.Format
import DataClass.Command.Invocation
import DataClass.Command.Run
import DataClass.Diagnostic.Basic
import DataClass.Diagnostic.Counter
import DataClass.Diagnostic.Report
import DataClass.Grammar.Cursor
import DataClass.Grammar.Declaration
import DataClass.Grammar.Expr
import DataClass.Grammar.Recovery
import DataClass.Grammar.Stmt
import DataClass.Grammar.TypeRef
import DataClass.Layout.Expr
import DataClass.Layout.Line
import DataClass.Layout.Program
import DataClass.Layout.Stmt
import DataClass.Layout.Style
import DataClass.Lowering.ClassTable
import DataClass.Lowering.Expr
import DataClass.Lowering.Fault
import DataClass.Lowering.Program
import DataClass.Lowering.Stmt
import DataClass.Lowering.Text
import DataClass.Lowering.Token
import DataClass.Lowering.TypeRef
import DataClass.Lowering.Writes
import DataClass.Main
import DataClass.Number.Binary64
import DataClass.Number.Decimal
import DataClass.Outline.Basic
import DataClass.Outline.Program
import DataClass.Outline.Token
import DataClass.Program.Agreement
import DataClass.Program.Basic
import DataClass.Program.Class
import DataClass.Program.Edit
import DataClass.Program.Expr
import DataClass.Program.Path
import DataClass.Program.Stmt
import DataClass.Program.TypeRef
import DataClass.Proofs.Accessor.Clashes
import DataClass.Proofs.Accessor.Convergence
import DataClass.Proofs.Accessor.Counts
import DataClass.Proofs.Accessor.Coverage
import DataClass.Proofs.Accessor.Edits
import DataClass.Proofs.Accessor.Elements
import DataClass.Proofs.Accessor.Entries
import DataClass.Proofs.Accessor.FieldPlans
import DataClass.Proofs.Accessor.Frame
import DataClass.Proofs.Accessor.Isolation
import DataClass.Proofs.Accessor.Marked
import DataClass.Proofs.Accessor.Marks
import DataClass.Proofs.Accessor.Names
import DataClass.Proofs.Accessor.Planning
import DataClass.Proofs.Accessor.Pointing
import DataClass.Proofs.Accessor.Quiet
import DataClass.Proofs.Accessor.Recurrence
import DataClass.Proofs.Accessor.Reports
import DataClass.Proofs.Accessor.Rereading
import DataClass.Proofs.Accessor.Rewriting
import DataClass.Proofs.Accessor.Rounds
import DataClass.Proofs.Accessor.Writable
import DataClass.Proofs.Command.Contents
import DataClass.Proofs.Command.Differences
import DataClass.Proofs.Command.Expansion
import DataClass.Proofs.Command.Formatting
import DataClass.Proofs.Command.Outgrowing
import DataClass.Proofs.Command.Summary
import DataClass.Proofs.Grammar.Completeness.Declaration
import DataClass.Proofs.Grammar.Completeness.Expr
import DataClass.Proofs.Grammar.Completeness.Stmt
import DataClass.Proofs.Grammar.Completeness.TypeRef
import DataClass.Proofs.Grammar.Consuming
import DataClass.Proofs.Grammar.Cutting.Basic
import DataClass.Proofs.Grammar.Cutting.Bodies
import DataClass.Proofs.Grammar.Cutting.Declaration
import DataClass.Proofs.Grammar.Cutting.Syntax
import DataClass.Proofs.Grammar.Declared
import DataClass.Proofs.Grammar.Flawed
import DataClass.Proofs.Grammar.Keeping
import DataClass.Proofs.Grammar.Laying.Basic
import DataClass.Proofs.Grammar.Laying.Syntax
import DataClass.Proofs.Grammar.Leftover
import DataClass.Proofs.Grammar.OperatorGrammar
import DataClass.Proofs.Grammar.Paring
import DataClass.Proofs.Grammar.Passing
import DataClass.Proofs.Grammar.Pointing.Basic
import DataClass.Proofs.Grammar.Pointing.Syntax
import DataClass.Proofs.Grammar.Segments
import DataClass.Proofs.Grammar.Shape
import DataClass.Proofs.Grammar.Shifting.Basic
import DataClass.Proofs.Grammar.Shifting.Syntax
import DataClass.Proofs.Grammar.Soundness.Declaration
import DataClass.Proofs.Grammar.Soundness.Expr
import DataClass.Proofs.Grammar.Soundness.Stmt
import DataClass.Proofs.Grammar.Soundness.TypeRef
import DataClass.Proofs.Grammar.Taking
import DataClass.Proofs.Grammar.Tracking.Basic
import DataClass.Proofs.Grammar.Tracking.Bodies
import DataClass.Proofs.Grammar.Tracking.Declaration
import DataClass.Proofs.Grammar.Tracking.Expr
import DataClass.Proofs.Grammar.Tracking.Lists
import DataClass.Proofs.Grammar.Tracking.Stmt
import DataClass.Proofs.Grammar.Tracking.TypeRef
import DataClass.Proofs.Grammar.Unclosed
import DataClass.Proofs.Grammar.Unplaced
import DataClass.Proofs.Grammar.Walk.Basic
import DataClass.Proofs.Grammar.Walk.Bodies
import DataClass.Proofs.Grammar.Walk.Declaration
import DataClass.Proofs.Grammar.Walk.Expr
import DataClass.Proofs.Grammar.Walk.Lists
import DataClass.Proofs.Grammar.Walk.Mirror
import DataClass.Proofs.Grammar.Walk.Program
import DataClass.Proofs.Grammar.Walk.Stmt
import DataClass.Proofs.Grammar.Walk.TypeRef
import DataClass.Proofs.Grammar.Yield
import DataClass.Proofs.Layout.Expr
import DataClass.Proofs.Layout.Kept
import DataClass.Proofs.Layout.Literals
import DataClass.Proofs.Layout.Pieces
import DataClass.Proofs.Layout.Program
import DataClass.Proofs.Layout.Reformatting
import DataClass.Proofs.Layout.RoundTrip
import DataClass.Proofs.Layout.Spelled.Kinds
import DataClass.Proofs.Layout.Spelled.Shape
import DataClass.Proofs.Layout.Spelled.Text
import DataClass.Proofs.Layout.Stmt
import DataClass.Proofs.Layout.Tight
import DataClass.Proofs.Layout.Writable
import DataClass.Proofs.Lowering.Accessors
import DataClass.Proofs.Lowering.Builders
import DataClass.Proofs.Lowering.Canonical
import DataClass.Proofs.Lowering.Chains
import DataClass.Proofs.Lowering.Code
import DataClass.Proofs.Lowering.Fitting
import DataClass.Proofs.Lowering.Items
import DataClass.Proofs.Lowering.Mutators
import DataClass.Proofs.Lowering.Names
import DataClass.Proofs.Lowering.Nodes
import DataClass.Proofs.Lowering.Places
import DataClass.Proofs.Lowering.References
import DataClass.Proofs.Lowering.Routines
import DataClass.Proofs.Lowering.Structure
import DataClass.Proofs.Lowering.Supported
import DataClass.Proofs.Lowering.Writes
import DataClass.Proofs.Number.Decimals
import DataClass.Proofs.Number.Rounding
import DataClass.Proofs.Program.Addressed
import DataClass.Proofs.Program.Agreement
import DataClass.Proofs.Program.Canonical
import DataClass.Proofs.Program.Cut
import DataClass.Proofs.Program.Erasure
import DataClass.Proofs.Program.Extension
import DataClass.Proofs.Program.Extent
import DataClass.Proofs.Program.Joining
import DataClass.Proofs.Program.Laid
import DataClass.Proofs.Program.Likeness
import DataClass.Proofs.Program.Literals
import DataClass.Proofs.Program.Lookup
import DataClass.Proofs.Program.Parts
import DataClass.Proofs.Program.Placed
import DataClass.Proofs.Program.Pointing
import DataClass.Proofs.Program.Spelled
import DataClass.Proofs.Target.Code
import DataClass.Proofs.Target.Items
import DataClass.Proofs.Target.Reading
import DataClass.Proofs.Target.Scope
import DataClass.Proofs.Target.Tree
import DataClass.Proofs.Text.Lines
import DataClass.Proofs.Text.Positions
import DataClass.Proofs.Token.Fragment
import DataClass.Proofs.Token.Joining
import DataClass.Proofs.Token.Lexeme
import DataClass.Proofs.Token.Pointing
import DataClass.Proofs.Token.Scanned
import DataClass.Proofs.Token.Spelling
import DataClass.Proofs.Token.Stretch
import DataClass.Proofs.Token.Tiling
import DataClass.Text.Blank
import DataClass.Text.Invisible
import DataClass.Text.Line
import DataClass.Text.Quoted
import DataClass.Text.Span
import DataClass.Token.Basic
import DataClass.Token.Scan
import DataClass.Vocabulary.BuiltinType
import DataClass.Vocabulary.Keyword
import DataClass.Vocabulary.Naming
import DataClass.Vocabulary.Operator
import DataClass.Vocabulary.Punctuation
import DataClass.Vocabulary.Release
import DataClass.Vocabulary.TargetWord
