import DataClass.Grammar.Expr
import DataClass.Grammar.Recovery
import DataClass.Grammar.TypeRef
import DataClass.Program.Stmt
namespace DataClass.Grammar.Reader

/-! Reading statements and blocks. -/

def invalidTarget (span : Span) : Diagnostic :=
  (Diagnostic.syntaxFault "Invalid assignment target" span).withHint
    "Only variables and fields such as 'this.name' can be assigned"

/-- Read a block whose statements are read by `statement`. -/
def blockWith (statement : Reader Stmt) : Reader (List Stmt) :=
  braced .statements "'\x7b' to open block" "'\x7d' to close block" statement

/-- Read `name: Type = value;`, where the type and the value may be missing. -/
def declareFrom (start : Nat) : Reader Stmt := do
  let name ← identifier
  let type ← typeAfterColon
  let value ← expressionAfterEquals
  expect (.punctuation .semicolon) "';' after let"
  return .declare (← spanFrom start) name type value

/-- Read the value of a `return`, which may be missing. -/
def giveBackFrom (start : Nat) : Reader Stmt := do
  if ← accept (.punctuation .semicolon) then
    return .giveBack (← spanFrom start) none
  else
    let value ← expression
    expect (.punctuation .semicolon) "';' after return"
    return .giveBack (← spanFrom start) (some value)

/-- Read what follows `else`. Another `if` right behind it is the only statement of its body. -/
def elseWith (statement : Reader Stmt) : Reader (Option (List Stmt)) := do
  if ← accept (.keyword .elseWord) then
    if ← isNext (.keyword .ifWord) then
      let nested ← statement
      return some [nested]
    else
      let body ← blockWith statement
      return some body
  else return none

/-- Read the condition and the bodies of an `if`. -/
def chooseFrom (statement : Reader Stmt) (start : Nat) : Reader Stmt := do
  let condition ← expression
  let thenBody ← blockWith statement
  let elseBody ← elseWith statement
  return .choose (← spanFrom start) condition thenBody elseBody

/-- Read the condition and the body of a `while`. -/
def repeatFrom (statement : Reader Stmt) (start : Nat) : Reader Stmt := do
  let condition ← expression
  let body ← blockWith statement
  return .repeatWhile (← spanFrom start) condition body

/-- Read an assignment or an expression. -/
def evaluateFrom (start : Nat) : Reader Stmt := do
  let expr ← expression
  if ← accept (.operator .eq) then
    if expr.isAssignable then
      let value ← expression
      expect (.punctuation .semicolon) "';' after assignment"
      return .assign (← spanFrom start) expr value
    else fail (invalidTarget expr.span)
  else
    expect (.punctuation .semicolon) "';' after expression"
    return .evaluate (← spanFrom start) expr

/-- Read a statement whose inner statements are read by `inner`. -/
def statementWith (inner : Reader Stmt) : Reader Stmt := do
  let first ← current
  let start := first.span.start
  match first.kind with
  | .keyword .letWord => advance; declareFrom start
  | .keyword .returnWord => advance; giveBackFrom start
  | .keyword .ifWord => advance; chooseFrom inner start
  | .keyword .whileWord => advance; repeatFrom inner start
  | _ => evaluateFrom start

/-- Read a statement with blocks inside of blocks up to a depth. -/
def statementAt : Nat → Reader Stmt
  | 0 => failExpected "expression"
  | depth + 1 => statementWith (statementAt depth)

/-- Read a statement. Blocks cannot be nested deeper than there are tokens. -/
def statement : Reader Stmt := do statementAt ((← remaining) + 1)

/-- Read a block. -/
def block : Reader (List Stmt) := blockWith statement

end DataClass.Grammar.Reader
