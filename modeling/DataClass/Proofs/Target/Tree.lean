import DataClass.Lowering.Token
import DataClass.Program.Expr
import DataClass.Vocabulary.TargetWord
namespace DataClass.Target

open Lowering

/-! Expressions of the target language, as far as lowered programs use it, and how it reads them.

The target language has its own table of operators. `||` binds least tightly, then come `&&`, the
comparisons, which cannot be chained, sums and products. All signs before an operand bind more
tightly than any operator between two, and less tightly than what is written behind an operand. -/

/-- What may stand before an operand. -/
inductive Sign where
  | negate
  | not
  | borrow
deriving DecidableEq

namespace Sign

def all : List Sign := [.negate, .not, .borrow]

def spelling : Sign → String
  | .negate => "-"
  | .not => "!"
  | .borrow => "&"

def ofSpelling? (signs : String) : Option Sign := all.find? (·.spelling == signs)

def strength : Nat := 6

end Sign

/-- How an operator between two operands is written. -/
def spelling : BinaryOp → String
  | .or => "||"
  | .and => "&&"
  | .eq => "=="
  | .notEq => "!="
  | .lt => "<"
  | .ltEq => "<="
  | .gt => ">"
  | .gtEq => ">="
  | .add => "+"
  | .sub => "-"
  | .mul => "*"
  | .div => "/"
  | .mod => "%"

/-- How tightly an operator binds. -/
def strength : BinaryOp → Nat
  | .or => 1
  | .and => 2
  | .eq | .notEq | .lt | .ltEq | .gt | .gtEq => 3
  | .add | .sub => 4
  | .mul | .div | .mod => 5

def strengths : List Nat := [1, 2, 3, 4, 5]

/-- Whether operators of one strength may follow one another. If so they are grouped from the left. -/
def chains (op : BinaryOp) : Bool := strength op != 3

theorem strength_lt_sign (op : BinaryOp) : strength op < Sign.strength := by
  cases op <;> decide

theorem chains_of_strength {op other : BinaryOp} (same : strength op = strength other) :
    chains op = chains other := by
  rw [chains, chains, same]

def ofSpelling? (signs : String) : Option BinaryOp := BinaryOp.all.find? (spelling · == signs)

/-- Words that may name a variable, a field or a function. -/
def isName (word : String) : Bool := !TargetWord.isReserved word

/-- Words that a path may begin with. -/
def opensPath (word : String) : Bool := isName word || TargetWord.neverRaw.contains word

inductive Tree where
  | number (text : String)
  | string (value : String)
  | bool (value : Bool)
  | path (first : String) (rest : List String)
  | field (base : Tree) (name : String)
  | call (callee : Tree) (arguments : List Tree)
  | methodCall (receiver : Tree) (name : String) (arguments : List Tree)
  | unary (sign : Sign) (operand : Tree)
  | binary (left : Tree) (op : BinaryOp) (right : Tree)
  | paren (inner : Tree)

namespace Tree

/-- The segments of a path behind its first one. -/
def segmentTokens (segments : List String) : Tokens :=
  segments.flatMap fun segment => [.mark "::", .word segment]

mutual

/-- The tokens of a tree, with the parentheses that are in the tree and no others. -/
def tokens : Tree → Tokens
  | .number text => [.number text]
  | .string value => [.string value]
  | .bool value => [.word (if value then "true" else "false")]
  | .path first rest => .word first :: segmentTokens rest
  | .field base name => base.tokens ++ [.mark ".", .word name]
  | .call callee arguments =>
      callee.tokens ++ Tokens.inParens (Tokens.commaSeparated (tokensAll arguments))
  | .methodCall receiver name arguments =>
      receiver.tokens ++
        .mark "." :: .word name :: Tokens.inParens (Tokens.commaSeparated (tokensAll arguments))
  | .unary sign operand => .mark sign.spelling :: operand.tokens
  | .binary left op right => left.tokens ++ .mark (spelling op) :: right.tokens
  | .paren inner => Tokens.inParens inner.tokens

def tokensAll : List Tree → List Tokens
  | [] => []
  | tree :: rest => tree.tokens :: tokensAll rest

end

theorem tokensAll_eq_map (trees : List Tree) : tokensAll trees = trees.map tokens := by
  induction trees with
  | nil => rfl
  | cons tree rest ih => rw [tokensAll, ih, List.map_cons]

/-- How tightly the outside of a tree binds. -/
def strength : Tree → Nat
  | .binary _ op _ => Target.strength op
  | .unary _ _ => Sign.strength
  | _ => Sign.strength + 1

def isField : Tree → Bool
  | .field _ _ => true
  | _ => false

/-- Trees that need no parentheses but the ones they have. -/
inductive Shaped : Tree → Prop where
  | number (text : String) : Shaped (.number text)
  | string (value : String) : Shaped (.string value)
  | bool (value : Bool) : Shaped (.bool value)
  | path {first : String} {rest : List String} (opens : opensPath first = true)
      (names : ∀ segment ∈ rest, isName segment = true) : Shaped (.path first rest)
  | field {base : Tree} {name : String} (tight : Sign.strength < base.strength)
      (named : isName name = true) (inside : base.Shaped) : Shaped (.field base name)
  | call {callee : Tree} {arguments : List Tree} (tight : Sign.strength < callee.strength)
      (called : callee.isField = false) (inside : callee.Shaped)
      (given : ∀ argument ∈ arguments, argument.Shaped) : Shaped (.call callee arguments)
  | methodCall {receiver : Tree} {name : String} {arguments : List Tree}
      (tight : Sign.strength < receiver.strength) (named : isName name = true)
      (inside : receiver.Shaped) (given : ∀ argument ∈ arguments, argument.Shaped) :
      Shaped (.methodCall receiver name arguments)
  | unary (sign : Sign) {operand : Tree} (tight : Sign.strength ≤ operand.strength)
      (inside : operand.Shaped) : Shaped (.unary sign operand)
  | binary (op : BinaryOp) {left right : Tree}
      (fits : Target.strength op < left.strength ∨
        chains op = true ∧ left.strength = Target.strength op)
      (tight : Target.strength op < right.strength) (first : left.Shaped) (second : right.Shaped) :
      Shaped (.binary left op right)
  | paren {inner : Tree} (inside : inner.Shaped) : Shaped (.paren inner)

end Tree

/-! ### The reader -/

/-- What is read from the front of tokens, and what is left of them. -/
abbrev Reading (α : Type) := Tokens → Option (α × Tokens)

/-- The tokens behind a mark. -/
def accept? (signs : String) : Tokens → Option Tokens
  | .mark found :: rest => if found = signs then some rest else none
  | _ => none

def name? : Reading String
  | .word word :: rest => if isName word then some (word, rest) else none
  | _ => none

/-- Read the segments behind the first one of a path. -/
def segments : Reading (List String)
  | .mark signs :: .word word :: rest =>
      if signs = "::" then
        if isName word then (segments rest).map fun read => (word :: read.1, read.2) else none
      else some ([], .mark signs :: .word word :: rest)
  | tokens => some ([], tokens)

/-- Read a word as an operand: a truth value or a path. -/
def wordOperand (word : String) (rest : Tokens) : Option (Tree × Tokens) :=
  if word = "true" then some (.bool true, rest)
  else if word = "false" then some (.bool false, rest)
  else if opensPath word then (segments rest).map fun read => (.path word read.1, read.2)
  else none

/-- Read an operand. In parentheses, `inner` reads. -/
def operandWith (inner : Reading Tree) : Reading Tree
  | .number text :: rest => some (.number text, rest)
  | .string value :: rest => some (.string value, rest)
  | .word word :: rest => wordOperand word rest
  | .mark signs :: rest =>
      if signs = "(" then do
        let (tree, behind) ← inner rest
        let behind ← accept? ")" behind
        return (.paren tree, behind)
      else none
  | [] => none

/-- Read arguments with commas between them up to the closing parenthesis. -/
def argumentsFrom (inner : Reading Tree) : Nat → Reading (List Tree)
  | 0, _ => none
  | fuel + 1, tokens =>
      match accept? ")" tokens with
      | some rest => some ([], rest)
      | none => do
          let (first, rest) ← inner tokens
          match accept? "," rest with
          | some rest =>
              let (others, rest) ← argumentsFrom inner fuel rest
              return (first :: others, rest)
          | none =>
              let rest ← accept? ")" rest
              return ([first], rest)

def argumentsWith (inner : Reading Tree) : Reading (List Tree) := fun tokens =>
  argumentsFrom inner (tokens.length + 1) tokens

/-- Read the accesses and calls behind an operand. -/
def accesses (inner : Reading Tree) : Nat → Tree → Reading Tree
  | 0, _, _ => none
  | fuel + 1, base, tokens =>
      match accept? "." tokens with
      | some rest => do
          let (name, rest) ← name? rest
          match accept? "(" rest with
          | some rest =>
              let (arguments, rest) ← argumentsWith inner rest
              accesses inner fuel (.methodCall base name arguments) rest
          | none => accesses inner fuel (.field base name) rest
      | none =>
          match accept? "(" tokens with
          | some rest => do
              let (arguments, rest) ← argumentsWith inner rest
              accesses inner fuel (.call base arguments) rest
          | none => some (base, tokens)

def accessedWith (inner : Reading Tree) : Reading Tree := fun tokens => do
  let (base, rest) ← operandWith inner tokens
  accesses inner (rest.length + 1) base rest

/-- Read the signs before an operand, and the operand. -/
def signed (operand : Reading Tree) : Reading Tree
  | .mark signs :: rest =>
      match Sign.ofSpelling? signs with
      | some sign => (signed operand rest).map fun read => (.unary sign read.1, read.2)
      | none => operand (.mark signs :: rest)
  | tokens => operand tokens

/-- The operator of some strength that tokens begin with, and the tokens behind it. -/
def operatorAt? (level : Nat) : Reading BinaryOp
  | .mark signs :: rest =>
      ((ofSpelling? signs).filter (strength · == level)).map fun op => (op, rest)
  | _ => none

/-- Read the operators of some strength behind a first operand, with their right operands. -/
def operatorsBehind (operand : Reading Tree) (level : Nat) : Nat → Tree → Reading Tree
  | 0, _, _ => none
  | fuel + 1, left, tokens =>
      match operatorAt? level tokens with
      | none => some (left, tokens)
      | some (op, behind) => do
          let (right, rest) ← operand behind
          if chains op then operatorsBehind operand level fuel (.binary left op right) rest
          else if (operatorAt? level rest).isSome then none
          else return (.binary left op right, rest)

/-- Read operators of several strengths, the loosest first, between operands. -/
def binaryWith (operand : Reading Tree) : List Nat → Reading Tree
  | [] => operand
  | level :: tighter => fun tokens => do
      let (left, rest) ← binaryWith operand tighter tokens
      operatorsBehind (binaryWith operand tighter) level (rest.length + 1) left rest

/-- Read an expression with parentheses inside of parentheses up to a depth. -/
def treeAt : Nat → Reading Tree
  | 0 => fun _ => none
  | depth + 1 => binaryWith (signed (accessedWith (treeAt depth))) strengths

/-- The expression that the target language reads from tokens, all of them. -/
def read (tokens : Tokens) : Option Tree :=
  match treeAt (tokens.length + 1) tokens with
  | some (tree, []) => some tree
  | _ => none

end DataClass.Target
