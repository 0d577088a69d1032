import DataClass.Lowering.Writes
namespace DataClass.Lowering

/-! The more methods are taken to change their receiver, the more a body writes to. -/

variable {fewer more : String → Bool} {root : Root}

mutual

theorem exprWrites_mono (known : ∀ name, fewer name = true → more name = true) :
    (expr : Expr) → root ∈ exprWrites fewer expr → root ∈ exprWrites more expr
  | .int _ _ | .float _ _ | .string _ _ | .bool _ _ | .null _ | .ident _ _ | .this _ => id
  | .field _ base _ => exprWrites_mono known base
  | .call _ callee arguments => by
      simp only [exprWrites, List.mem_append]
      exact Or.imp (exprWrites_mono known callee) (exprsWrites_mono known arguments)
  | .methodCall _ receiver name arguments => by
      simp only [exprWrites, List.mem_append]
      refine Or.imp (Or.imp (fun here => ?_) (exprWrites_mono known receiver))
        (exprsWrites_mono known arguments)
      cases mutates : fewer name with
      | true => simpa [mutates, known name mutates] using here
      | false => simp [mutates] at here
  | .unary _ _ operand => exprWrites_mono known operand
  | .binary _ left _ right => by
      simp only [exprWrites, List.mem_append]
      exact Or.imp (exprWrites_mono known left) (exprWrites_mono known right)
  | .paren _ inner => exprWrites_mono known inner

theorem exprsWrites_mono (known : ∀ name, fewer name = true → more name = true) :
    (exprs : List Expr) → root ∈ exprsWrites fewer exprs → root ∈ exprsWrites more exprs
  | [] => id
  | expr :: rest => by
      simp only [exprsWrites, List.mem_append]
      exact Or.imp (exprWrites_mono known expr) (exprsWrites_mono known rest)

end

theorem optionWrites_mono (known : ∀ name, fewer name = true → more name = true)
    (value : Option Expr) : root ∈ optionWrites fewer value → root ∈ optionWrites more value := by
  cases value with
  | none => exact id
  | some expr => exact exprWrites_mono known expr

mutual

theorem stmtWrites_mono (known : ∀ name, fewer name = true → more name = true) :
    (stmt : Stmt) → root ∈ stmtWrites fewer stmt → root ∈ stmtWrites more stmt
  | .declare _ _ _ value => optionWrites_mono known value
  | .assign _ target value => by
      simp only [stmtWrites, List.mem_append]
      exact Or.imp (Or.imp id (exprWrites_mono known target)) (exprWrites_mono known value)
  | .giveBack _ value => optionWrites_mono known value
  | .choose _ condition thenBody none => by
      simp only [stmtWrites, List.mem_append]
      exact Or.imp (exprWrites_mono known condition) (bodyWrites_mono known thenBody)
  | .choose _ condition thenBody (some elseBody) => by
      simp only [stmtWrites, List.mem_append]
      exact Or.imp (Or.imp (exprWrites_mono known condition) (bodyWrites_mono known thenBody))
        (bodyWrites_mono known elseBody)
  | .repeatWhile _ condition body => by
      simp only [stmtWrites, List.mem_append]
      exact Or.imp (exprWrites_mono known condition) (bodyWrites_mono known body)
  | .evaluate _ expr => exprWrites_mono known expr

theorem bodyWrites_mono (known : ∀ name, fewer name = true → more name = true) :
    (body : List Stmt) → root ∈ bodyWrites fewer body → root ∈ bodyWrites more body
  | [] => id
  | stmt :: rest => by
      simp only [bodyWrites, List.mem_append]
      exact Or.imp (stmtWrites_mono known stmt) (bodyWrites_mono known rest)

end

theorem writesThis_mono (known : ∀ name, fewer name = true → more name = true) {body : List Stmt}
    (writes : writesThis fewer body = true) : writesThis more body = true :=
  List.contains_iff_mem.mpr (bodyWrites_mono known body (List.contains_iff_mem.mp writes))

end DataClass.Lowering
