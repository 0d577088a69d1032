import DataClass.Program.Stmt
namespace DataClass.Lowering

/-! What a body writes to.

A place is a variable, or `this`, with fields read off it. A body writes to the root of a place by
assigning to the place or by calling a mutating method on it.
-/

inductive Root where
  | this
  | variable (name : String)
deriving DecidableEq

/-- The root of a place; other expressions have none. -/
def root? : Expr → Option Root
  | .this _ => some .this
  | .ident _ name => some (.variable name)
  | .field _ base _ => root? base
  | .paren _ inner => root? inner
  | _ => none

/-- Methods of the library that change their receiver. -/
def libraryMutators : List String :=
  ["push", "pop", "insert", "remove", "clear", "extend", "truncate", "sort", "reverse", "retain",
   "append", "drain"]

mutual

/-- The roots that an expression writes to. -/
def exprWrites (isMutating : String → Bool) : Expr → List Root
  | .int _ _ | .float _ _ | .string _ _ | .bool _ _ | .null _ | .ident _ _ | .this _ => []
  | .field _ base _ => exprWrites isMutating base
  | .call _ callee arguments => exprWrites isMutating callee ++ exprsWrites isMutating arguments
  | .methodCall _ receiver name arguments =>
      (if isMutating name then (root? receiver).toList else []) ++
        exprWrites isMutating receiver ++ exprsWrites isMutating arguments
  | .unary _ _ operand => exprWrites isMutating operand
  | .binary _ left _ right => exprWrites isMutating left ++ exprWrites isMutating right
  | .paren _ inner => exprWrites isMutating inner

def exprsWrites (isMutating : String → Bool) : List Expr → List Root
  | [] => []
  | expr :: rest => exprWrites isMutating expr ++ exprsWrites isMutating rest

end

def optionWrites (isMutating : String → Bool) : Option Expr → List Root
  | none => []
  | some expr => exprWrites isMutating expr

mutual

/-- The roots that a statement writes to. -/
def stmtWrites (isMutating : String → Bool) : Stmt → List Root
  | .declare _ _ _ value => optionWrites isMutating value
  | .assign _ target value =>
      (root? target).toList ++ exprWrites isMutating target ++ exprWrites isMutating value
  | .giveBack _ value => optionWrites isMutating value
  | .choose _ condition thenBody none =>
      exprWrites isMutating condition ++ bodyWrites isMutating thenBody
  | .choose _ condition thenBody (some elseBody) =>
      exprWrites isMutating condition ++ bodyWrites isMutating thenBody ++
        bodyWrites isMutating elseBody
  | .repeatWhile _ condition body =>
      exprWrites isMutating condition ++ bodyWrites isMutating body
  | .evaluate _ expr => exprWrites isMutating expr

/-- The roots that a body writes to. -/
def bodyWrites (isMutating : String → Bool) : List Stmt → List Root
  | [] => []
  | stmt :: rest => stmtWrites isMutating stmt ++ bodyWrites isMutating rest

end

/-- Whether a body writes through `this`. -/
def writesThis (isMutating : String → Bool) (body : List Stmt) : Bool :=
  (bodyWrites isMutating body).contains .this

/-- Whether a body writes to a variable. -/
def writesVariable (isMutating : String → Bool) (body : List Stmt) (name : String) : Bool :=
  (bodyWrites isMutating body).contains (.variable name)

end DataClass.Lowering
