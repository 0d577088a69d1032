import DataClass.Layout.Expr
import DataClass.Layout.Line
import DataClass.Program.Stmt
namespace DataClass.Layout

/-! Statements as lines. -/

/-- A type behind a colon. -/
def typeSuffix : Option TypeRef → String
  | none => ""
  | some type => ": " ++ type.text

/-- A value behind an equals sign. -/
def valueSuffix (quote : Quote) : Option Expr → String
  | none => ""
  | some value => " = " ++ exprText quote value

def isChoice : Stmt → Bool
  | .choose _ _ _ _ => true
  | _ => false

mutual

/-- The lines of a statement, the first one behind the text `head`. -/
def stmtLines (quote : Quote) (head : String) : Stmt → List Line
  | .declare _ name type value =>
      [.plain (head ++ "let " ++ name ++ typeSuffix type ++ valueSuffix quote value ++ ";")]
  | .assign _ target value =>
      [.plain (head ++ exprText quote target ++ " = " ++ exprText quote value ++ ";")]
  | .giveBack _ none => [.plain (head ++ "return;")]
  | .giveBack _ (some value) => [.plain (head ++ "return " ++ exprText quote value ++ ";")]
  | .choose _ condition thenBody none =>
      Line.block (head ++ "if " ++ exprText quote condition ++ " ") (bodyLines quote thenBody)
  | .choose _ condition thenBody (some elseBody) =>
      let (before, last) :=
        Line.enclose (head ++ "if " ++ exprText quote condition ++ " ") (bodyLines quote thenBody)
      before ++ elseLines quote (last ++ " else ") elseBody
  | .repeatWhile _ condition body =>
      Line.block (head ++ "while " ++ exprText quote condition ++ " ") (bodyLines quote body)
  | .evaluate _ expr => [.plain (head ++ exprText quote expr ++ ";")]

/-- The lines of the statements of a body. -/
def bodyLines (quote : Quote) : List Stmt → List Line
  | [] => []
  | stmt :: rest => stmtLines quote "" stmt ++ bodyLines quote rest

/-- The lines behind an `else`. A body that is nothing but another `if` is written without
braces. -/
def elseLines (quote : Quote) (head : String) : List Stmt → List Line
  | [] => Line.block head []
  | [only] =>
      if isChoice only then stmtLines quote head only
      else Line.block head (stmtLines quote "" only)
  | first :: second :: rest =>
      Line.block head
        (stmtLines quote "" first ++ (stmtLines quote "" second ++ bodyLines quote rest))

end

end DataClass.Layout
