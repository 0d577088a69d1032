import DataClass.Program.Agreement
import DataClass.Program.Expr
import DataClass.Program.TypeRef
namespace DataClass

/-! Statements. -/

inductive Stmt where
  | declare (span : Span) (name : String) (type : Option TypeRef) (value : Option Expr)
  | assign (span : Span) (target value : Expr)
  | giveBack (span : Span) (value : Option Expr)
  | choose (span : Span) (condition : Expr) (thenBody : List Stmt) (elseBody : Option (List Stmt))
  | repeatWhile (span : Span) (condition : Expr) (body : List Stmt)
  | evaluate (span : Span) (expr : Expr)

namespace Stmt

def span : Stmt → Span
  | .declare span _ _ _ | .assign span _ _ | .giveBack span _ | .choose span _ _ _
  | .repeatWhile span _ _ | .evaluate span _ => span

mutual

/-- Change every range. -/
def mapSpans (move : Span → Span) : Stmt → Stmt
  | .declare span name type value =>
      .declare (move span) name (type.map (·.mapSpans move)) (value.map (·.mapSpans move))
  | .assign span target value =>
      .assign (move span) (target.mapSpans move) (value.mapSpans move)
  | .giveBack span value => .giveBack (move span) (value.map (·.mapSpans move))
  | .choose span condition thenBody none =>
      .choose (move span) (condition.mapSpans move) (mapSpansAll move thenBody) none
  | .choose span condition thenBody (some elseBody) =>
      .choose (move span) (condition.mapSpans move) (mapSpansAll move thenBody)
        (some (mapSpansAll move elseBody))
  | .repeatWhile span condition body =>
      .repeatWhile (move span) (condition.mapSpans move) (mapSpansAll move body)
  | .evaluate span expr => .evaluate (move span) (expr.mapSpans move)

def mapSpansAll (move : Span → Span) : List Stmt → List Stmt
  | [] => []
  | stmt :: rest => stmt.mapSpans move :: mapSpansAll move rest

end

theorem mapSpansAll_eq_map (move : Span → Span) (stmts : List Stmt) :
    mapSpansAll move stmts = stmts.map (mapSpans move) := by
  induction stmts with
  | nil => rfl
  | cons stmt rest ih => simp [mapSpansAll, ih]

mutual

/-- Compare two statements, their ranges by `near`. -/
def agrees (near : Span → Span → Bool) : Stmt → Stmt → Bool
  | .declare left name type value, .declare right name' type' value' =>
      near left right && name == name' && agreesOption (TypeRef.agrees near) type type' &&
        agreesOption (Expr.agrees near) value value'
  | .assign left target value, .assign right target' value' =>
      near left right && target.agrees near target' && value.agrees near value'
  | .giveBack left value, .giveBack right value' =>
      near left right && agreesOption (Expr.agrees near) value value'
  | .choose left condition thenBody none, .choose right condition' thenBody' none =>
      near left right && condition.agrees near condition' && agreesAll near thenBody thenBody'
  | .choose left condition thenBody (some elseBody),
    .choose right condition' thenBody' (some elseBody') =>
      near left right && condition.agrees near condition' && agreesAll near thenBody thenBody' &&
        agreesAll near elseBody elseBody'
  | .repeatWhile left condition body, .repeatWhile right condition' body' =>
      near left right && condition.agrees near condition' && agreesAll near body body'
  | .evaluate left expr, .evaluate right expr' => near left right && expr.agrees near expr'
  | _, _ => false

def agreesAll (near : Span → Span → Bool) : List Stmt → List Stmt → Bool
  | [], [] => true
  | left :: lefts, right :: rights => left.agrees near right && agreesAll near lefts rights
  | _, _ => false

end

end Stmt

end DataClass
