import DataClass.Lowering.ClassTable
namespace DataClass.Lowering

/-! Lowering of expressions.

A field that is read for its value is cloned unless its type is copied anyway. Receivers of calls and
targets of assignments are used in place. A string literal is made an owned string, except on the
right of `+`, where a borrowed one is wanted.
-/

/-- What `this` is in a body. -/
inductive Receiver where
  /-- There is none: a function, or the default of a field. -/
  | absent
  /-- A method: the receiver of the call. -/
  | borrowed
  /-- A constructor: the value being built. -/
  | built
deriving DecidableEq

/-- What a body is lowered in. -/
structure Context where
  table : ClassTable
  info : Option ClassInfo
  receiver : Receiver
  /-- The whole body, which decides what is mutable. -/
  body : List Stmt

namespace Context

def isMutable (context : Context) (name : String) : Bool :=
  writesVariable context.table.isMutating context.body name

/-- The type of an expression that reads a field of `this`. -/
def thisFieldType? (context : Context) (expr : Expr) : Option TypeRef := do
  let name ← expr.thisField?
  let info ← context.info
  info.fieldType? name

def isCopyField (context : Context) (expr : Expr) : Bool :=
  match context.thisFieldType? expr with
  | some type => isCopyType type
  | none => false

def isStringField (context : Context) (expr : Expr) : Bool :=
  match context.thisFieldType? expr with
  | some type => isStringType type
  | none => false

/-- Whether an expression is seen to be a string that can be added to. -/
def isStringStart (context : Context) (expr : Expr) : Bool :=
  match expr with
  | .string _ _ => true
  | _ => context.isStringField expr

end Context

/-- How the value of an expression is used: taken out, or left in its place. -/
inductive Usage where
  | value
  | place
deriving DecidableEq

def lowerInt (value : Int) : Tokens :=
  let digits : Tokens := [.number (toString value.natAbs)]
  if value < 0 then .mark "-" :: digits else digits

def lowerFloat (value : Binary64) : Lowered Tokens :=
  if value.isFinite then
    let digits : Tokens := [.number (String.ofList ((Binary64.ofRank value.rank).pointedText))]
    return if value.isNegative then .mark "-" :: digits else digits
  else throw (.infiniteLiteral value)

def lowerString (usage : Usage) (value : String) : Tokens :=
  match usage with
  | .value => Tokens.word "String" ++ Tokens.mark "::" ++ Tokens.word "from" ++
      Tokens.inParens [.string value]
  | .place => [.string value]

def lowerThis : Receiver → Lowered Tokens
  | .borrowed => return Tokens.word "self"
  | .built => return Tokens.word "this"
  | .absent => throw .thisOutsideClass

def cloned (tokens : Tokens) : Tokens :=
  tokens ++ Tokens.mark "." ++ Tokens.word "clone" ++ Tokens.inParens []

/-- A call that builds a value of a class: through its constructor, or without one and without
arguments through its default. -/
def lowerConstruction (info : ClassInfo) (arguments : List Tokens) : Lowered Tokens := do
  let name ← identifier info.name
  if info.hasNew then
    return name :: Tokens.mark "::" ++ Tokens.word "new" ++
      Tokens.inParens (Tokens.commaSeparated arguments)
  else if arguments.isEmpty then
    return name :: Tokens.mark "::" ++ Tokens.word "default" ++ Tokens.inParens []
  else throw (.noConstructor info.name arguments.length)

/-- The class that a callee names. -/
def calledClass? (context : Context) : Expr → Option ClassInfo
  | .ident _ name => context.table.find? name
  | _ => none

/-- How the right operand of a binary operator is written. -/
inductive RightOperand where
  /-- A string literal behind `+`, as it is. -/
  | literal (value : String)
  /-- Behind the sign that borrows it. -/
  | borrowed
  | plain

def rightOperand (context : Context) (left : Expr) (op : BinaryOp) (right : Expr) : RightOperand :=
  if op = .add then
    match right with
    | .string _ value => .literal value
    | _ =>
        if context.isStringStart left || context.isStringField right then .borrowed else .plain
  else .plain

mutual

def lowerExpr (context : Context) (usage : Usage) (expr : Expr) : Lowered Tokens :=
  match expr with
  | .int _ value => return lowerInt value
  | .float _ value => lowerFloat value
  | .string _ value => return lowerString usage value
  | .bool _ true => return Tokens.word "true"
  | .bool _ false => return Tokens.word "false"
  | .null _ => return Tokens.word "None"
  | .ident _ name => do return [← identifier name]
  | .this _ => lowerThis context.receiver
  | .field span base name => do
      let base' ← lowerExpr context .place base
      let name' ← identifier name
      let read := base' ++ .mark "." :: [name']
      return if usage = .value && !context.isCopyField (.field span base name) then cloned read
        else read
  | .call _ callee arguments => do
      let arguments ← lowerExprs context arguments
      match calledClass? context callee with
      | some info => lowerConstruction info arguments
      | none =>
          let callee ← lowerExpr context .place callee
          return callee ++ Tokens.inParens (Tokens.commaSeparated arguments)
  | .methodCall _ receiver name arguments => do
      let receiver ← lowerExpr context .place receiver
      let name ← identifier name
      let arguments ← lowerExprs context arguments
      return receiver ++ .mark "." :: name :: Tokens.inParens (Tokens.commaSeparated arguments)
  | .unary _ op operand => do
      let operand ← lowerExpr context .value operand
      return Tokens.mark op.operator.spelling ++ operand
  | .binary _ left op right => do
      let left' ← lowerExpr context .value left
      match rightOperand context left op right with
      | .literal value => return left' ++ .mark "+" :: [.string value]
      | .borrowed =>
          let right' ← lowerExpr context .place right
          return left' ++ .mark "+" :: .mark "&" :: right'
      | .plain =>
          let right' ← lowerExpr context .value right
          return left' ++ Tokens.mark op.operator.spelling ++ right'
  | .paren _ inner => do
      let inner ← lowerExpr context usage inner
      return Tokens.inParens inner

/-- Arguments are taken for their values. -/
def lowerExprs (context : Context) : List Expr → Lowered (List Tokens)
  | [] => return []
  | expr :: rest => do
      let first ← lowerExpr context .value expr
      let later ← lowerExprs context rest
      return first :: later

end

end DataClass.Lowering
