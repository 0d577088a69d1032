import DataClass.Lowering.Expr
namespace DataClass.Lowering

/-! Lowering of statements. -/

def ended (tokens : Tokens) : Tokens := tokens ++ [.mark ";"]

/-- The word for a mutable variable in front of its name. -/
def binding (context : Context) (name : String) (token : TargetToken) : Tokens :=
  if context.isMutable name then [.word "mut", token] else [token]

def lowerTypeSuffix : Option TypeRef → Lowered Tokens
  | none => return []
  | some type => do return .mark ":" :: (← lowerType type)

def lowerDeclare (context : Context) (name : String) (type : Option TypeRef) (value : Option Expr) :
    Lowered Tokens := do
  let token ← identifier name
  let type ← lowerTypeSuffix type
  let head := .word "let" :: binding context name token ++ type
  match value with
  | none => return ended head
  | some value => return ended (head ++ .mark "=" :: (← lowerExpr context .value value))

/-- In a constructor the value being built is what is returned, and nothing else can be. -/
def lowerGiveBack (context : Context) : Option Expr → Lowered Tokens
  | none =>
      if context.receiver = .built then return ended [.word "return", .word "this"]
      else return ended [.word "return"]
  | some value =>
      if context.receiver = .built then throw .valueFromConstructor
      else do return ended (.word "return" :: (← lowerExpr context .value value))

def isChoice : Stmt → Bool
  | .choose _ _ _ _ => true
  | _ => false

mutual

def lowerStmt (context : Context) : Stmt → Lowered Tokens
  | .declare _ name type value => lowerDeclare context name type value
  | .assign _ target value => do
      let target ← lowerExpr context .place target
      let value ← lowerExpr context .value value
      return ended (target ++ .mark "=" :: value)
  | .giveBack _ value => lowerGiveBack context value
  | .choose _ condition thenBody none => do
      let condition ← lowerExpr context .value condition
      let thenBody ← lowerBody context thenBody
      return .word "if" :: condition ++ Tokens.inBraces thenBody
  | .choose _ condition thenBody (some elseBody) => do
      let condition ← lowerExpr context .value condition
      let thenBody ← lowerBody context thenBody
      let elseBranch ← lowerElse context elseBody
      return .word "if" :: condition ++ Tokens.inBraces thenBody ++ .word "else" :: elseBranch
  | .repeatWhile _ condition body => do
      let condition ← lowerExpr context .value condition
      let body ← lowerBody context body
      return .word "while" :: condition ++ Tokens.inBraces body
  | .evaluate _ expr => do return ended (← lowerExpr context .value expr)

def lowerBody (context : Context) : List Stmt → Lowered Tokens
  | [] => return []
  | stmt :: rest => do
      let first ← lowerStmt context stmt
      let later ← lowerBody context rest
      return first ++ later

/-- What stands behind an `else`: another `if` if that is the whole body, and a block otherwise. -/
def lowerElse (context : Context) : List Stmt → Lowered Tokens
  | [] => return Tokens.inBraces []
  | [only] => do
      let only' ← lowerStmt context only
      return if isChoice only then only' else Tokens.inBraces only'
  | first :: second :: rest => do
      let first ← lowerStmt context first
      let second ← lowerStmt context second
      let rest ← lowerBody context rest
      return Tokens.inBraces (first ++ (second ++ rest))

end

end DataClass.Lowering
