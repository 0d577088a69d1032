import DataClass.Grammar.Cursor
import DataClass.Program.Expr
namespace DataClass.Grammar.Reader

/-! Reading expressions.

How tightly an operator binds and how a row of operators is grouped is looked up in the table of
operators. The reader goes through the precedences from the loosest to the tightest; below them
come signs, then what is written behind an operand, then the operands themselves.
-/

/-- The precedences of the operators between two operands, the loosest first. -/
def precedences : List Nat := [10, 20, 30, 50, 60]

/-- The operator between two operands that a token stands for at one precedence. -/
def binaryAt? (precedence : Nat) : TokenKind → Option BinaryOp
  | .operator sign => (BinaryOp.ofOperator? sign).filter (·.precedence == precedence)
  | _ => none

/-- The operator before an operand that a token stands for. -/
def unary? : TokenKind → Option UnaryOp
  | .operator sign => UnaryOp.all.find? (·.operator == sign)
  | _ => none

def chainedComparison (span : Span) : Diagnostic :=
  (Diagnostic.syntaxFault "Comparison operators cannot be chained" span).withHint
    "Combine the comparisons with '&&'"

/-- Read the operators of one precedence behind a first operand, with their right operands. They
are grouped from the left; an operator that does not associate must not be followed by another
one of its precedence. -/
def operatorsBehind (operand : Reader Expr) (precedence : Nat) : Nat → Expr → Reader Expr
  | 0, left => return left
  | fuel + 1, left => do
      match binaryAt? precedence (← currentKind) with
      | none => return left
      | some op =>
          advance
          let right ← operand
          if op.operator.associativity = .none then
            match binaryAt? precedence (← currentKind) with
            | none => return left.join op right
            | some _ =>
                advance
                fail (chainedComparison (← previousSpan))
          else operatorsBehind operand precedence fuel (left.join op right)

/-- Read operators of several precedences, the loosest first, between operands. -/
def binaryWith (operand : Reader Expr) : List Nat → Reader Expr
  | [] => operand
  | precedence :: tighter => do
      let left ← binaryWith operand tighter
      operatorsBehind (binaryWith operand tighter) precedence (← remaining) left

/-- Read the signs before an operand, and the operand. -/
def signed (operand : Reader Expr) : Nat → Reader Expr
  | 0 => operand
  | fuel + 1 => do
      let sign ← current
      match unary? sign.kind with
      | none => operand
      | some op =>
          advance
          let inner ← signed operand fuel
          return .unary ⟨sign.span.start, inner.span.stop⟩ op inner

/-- Read the accesses and calls behind an operand. -/
def accesses (arguments : Reader (List Expr)) : Nat → Expr → Reader Expr
  | 0, base => return base
  | fuel + 1, base => do
      if ← accept (.punctuation .dot) then
        let name ← identifier
        if ← isNext (.punctuation .leftParen) then
          let given ← arguments
          accesses arguments fuel (.methodCall (← spanFrom base.span.start) base name given)
        else accesses arguments fuel (.field (← spanFrom base.span.start) base name)
      else if ← isNext (.punctuation .leftParen) then
        let given ← arguments
        accesses arguments fuel (.call (← spanFrom base.span.start) base given)
      else return base

/-- The operand that a single token stands for. -/
def operand? (token : Token) : Option Expr :=
  match token.kind with
  | .int value => some (.int token.span value)
  | .float value => some (.float token.span value)
  | .string value => some (.string token.span value)
  | .identifier name => some (.ident token.span name)
  | .keyword .trueWord => some (.bool token.span true)
  | .keyword .falseWord => some (.bool token.span false)
  | .keyword .nullWord => some (.null token.span)
  | .keyword .thisWord => some (.this token.span)
  | _ => none

/-- Read a single token or an expression in parentheses, which `inner` reads. -/
def operandWith (inner : Reader Expr) : Reader Expr := do
  let first ← current
  if first.kind = .punctuation .leftParen then
    advance
    let expr ← inner
    expect (.punctuation .rightParen) "')' to close parenthesized expression"
    return .paren (← spanFrom first.span.start) expr
  else
    match operand? first with
    | some expr => advance; return expr
    | none => failExpected "expression"

/-- Read the arguments of a call. -/
def argumentsWith (inner : Reader Expr) : Reader (List Expr) :=
  parenthesized "'(' before arguments" "')' after arguments" inner

/-- Read an operand with what is written behind it. -/
def accessedWith (inner : Reader Expr) : Reader Expr := do
  let base ← operandWith inner
  accesses (argumentsWith inner) (← remaining) base

/-- Read an operand with the signs before it. -/
def signedWith (inner : Reader Expr) : Reader Expr := do
  signed (accessedWith inner) (← remaining)

/-- Read an expression whose parts in parentheses are read by `inner`. -/
def expressionWith (inner : Reader Expr) : Reader Expr :=
  binaryWith (signedWith inner) precedences

/-- Read an expression with parentheses inside of parentheses up to a depth. -/
def expressionAt : Nat → Reader Expr
  | 0 => failExpected "expression"
  | depth + 1 => expressionWith (expressionAt depth)

/-- Read an expression. Parentheses cannot be nested deeper than there are tokens. -/
def expression : Reader Expr := do expressionAt ((← remaining) + 1)

/-- Read an expression behind an equals sign, if there is one. -/
def expressionAfterEquals : Reader (Option Expr) := do
  if ← accept (.operator .eq) then
    let value ← expression
    return some value
  else return none

end DataClass.Grammar.Reader
