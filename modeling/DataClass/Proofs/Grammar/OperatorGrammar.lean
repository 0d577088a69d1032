import DataClass.Proofs.Grammar.Completeness.Expr
import DataClass.Proofs.Grammar.Tracking.Expr
namespace DataClass

namespace TokenKind

end TokenKind

namespace Grammar.Reader

/-! The reader of expressions and the table of operators.

`Expr.Shaped` says of every node of a tree, by the precedences and the associativity in the table
alone, what may stand beside and under it. These are the trees that are read, each from the tokens
it is written with. -/

end Grammar.Reader

end DataClass
