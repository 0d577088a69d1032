import DataClass.Proofs.Lowering.Nodes
namespace DataClass.Lowering

/-! What keeps a part of a program from being lowered. A part can be lowered if and only if each node in
it fits, and the fault of a part is never that a class is unknown. -/

/-- A step gives a result if and only if a condition holds, and its fault is never an unknown class. -/
structure HingesOn {α : Type} (lowered : Lowered α) (condition : Prop) : Prop where
  succeeds : (∃ value, lowered = .ok value) ↔ condition
  known : ∀ name, lowered ≠ .error (.unknownClass name)

namespace HingesOn

variable {α β : Type} {lowered : Lowered α} {next : α → Lowered β} {condition other : Prop}

theorem of_iff (hinges : HingesOn lowered condition) (same : condition ↔ other) :
    HingesOn lowered other := ⟨hinges.succeeds.trans same, hinges.known⟩

theorem ok (value : α) : HingesOn (.ok value) True := ⟨⟨fun _ => trivial, fun _ => ⟨value, rfl⟩⟩, nofun⟩

theorem error {fault : LoweringFault} (known : ∀ name, fault ≠ .unknownClass name) :
    HingesOn (.error fault : Lowered α) False :=
  ⟨⟨nofun, False.elim⟩, fun name same => known name (Except.error.inj same)⟩

/-- Two steps one after the other. -/
theorem bind (first : HingesOn lowered condition)
    (second : ∀ value, lowered = .ok value → HingesOn (next value) other) :
    HingesOn (lowered >>= next) (condition ∧ other) := by
  cases lowered with
  | error fault =>
      refine ⟨⟨nofun, fun holds => ?_⟩, fun name same => ?_⟩
      · obtain ⟨_, done⟩ := first.succeeds.mpr holds.1
        cases done
      · exact first.known name (congrArg Except.error (Except.error.inj same))
  | ok value =>
      have behind := second value rfl
      have holds := first.succeeds.mp ⟨value, rfl⟩
      exact ⟨behind.succeeds.trans ⟨fun later => ⟨holds, later⟩, And.right⟩, behind.known⟩

/-- A step whose result is only put in a form. -/
theorem form (hinges : HingesOn lowered condition) (form : α → β) :
    HingesOn (lowered >>= fun value => .ok (form value)) condition :=
  (hinges.bind fun value _ => .ok (form value)).of_iff (by rw [and_true])

theorem mapM {step : α → Lowered β} {conditions : α → Prop} {values : List α}
    (each : ∀ value ∈ values, HingesOn (step value) (conditions value)) :
    HingesOn (values.mapM step) (∀ value ∈ values, conditions value) := by
  induction values with
  | nil => exact (ok []).of_iff (by simp)
  | cons value rest ih =>
      obtain ⟨here, later⟩ := List.forall_mem_cons.mp each
      rw [List.mapM_cons]
      exact (here.bind fun first _ => (ih later).form (first :: ·)).of_iff List.forall_mem_cons.symm

end HingesOn

/-! ### Names and types -/

variable (table : ClassTable)

theorem hinges_identifier (word : String) :
    HingesOn (identifier word) (Node.Fits table (.name word)) := by
  refine ⟨.rfl, fun other => ?_⟩
  unfold identifier
  split <;> nofun

theorem hinges_identifiers (words : List String) :
    HingesOn (identifiers words) (AllFit table (words.map .name)) := by
  induction words with
  | nil => exact (HingesOn.ok []).of_iff (by simp)
  | cons word rest ih =>
      exact ((hinges_identifier table word).bind fun first _ => ih.form (first :: ·)).of_iff (by simp)

theorem hinges_typePath (path : List String) (arguments : Nat) :
    HingesOn (typePath path arguments)
      ((∀ builtin, builtin? path = some builtin → builtin.arity = arguments) ∧
        AllFit table (pathNodes path)) := by
  unfold typePath pathNodes
  cases known : builtin? path with
  | none =>
      exact ((hinges_identifiers table path).form Tokens.path).of_iff (by simp)
  | some type =>
      dsimp only
      by_cases fits : type.arity = arguments
      · rw [if_pos fits]
        exact (HingesOn.ok _).of_iff (by simp [fits])
      · rw [if_neg fits]
        exact (HingesOn.error (by simp)).of_iff (by simp [fits])

theorem length_lowerTypes {types : List TypeRef} {parts : List Tokens}
    (lowered : lowerTypes types = .ok parts) : parts.length = types.length := by
  induction types generalizing parts with
  | nil =>
      obtain rfl := Except.ok.inj lowered
      rfl
  | cons type rest ih =>
      obtain ⟨first, _, lowered⟩ := Lowered.bind_eq_ok.mp lowered
      obtain ⟨later, there, lowered⟩ := Lowered.bind_eq_ok.mp lowered
      obtain rfl := Except.ok.inj lowered
      rw [List.length_cons, List.length_cons, ih there]

mutual

theorem hinges_lowerType : (type : TypeRef) →
    HingesOn (lowerType type) (AllFit table (typeNodes type))
  | .named _ path arguments => by
      rw [lowerType]
      refine ((hinges_lowerTypes arguments).bind fun parts lowered =>
        show HingesOn _ ((∀ builtin, builtin? path = some builtin →
          builtin.arity = arguments.length) ∧ AllFit table (pathNodes path)) from ?_).of_iff
            (by simp [typeNodes, Node.Fits, and_left_comm])
      rw [length_lowerTypes lowered]
      exact (hinges_typePath table path arguments.length).form (withArguments · parts)
  | .array _ element => by
      rw [lowerType]
      exact ((hinges_lowerType element).form _).of_iff (by simp [typeNodes, Node.Fits])
  | .void _ => (HingesOn.ok _).of_iff (by simp [typeNodes, Node.Fits])

theorem hinges_lowerTypes : (types : List TypeRef) →
    HingesOn (lowerTypes types) (AllFit table (typesNodes types))
  | [] => (HingesOn.ok []).of_iff (by simp [typesNodes])
  | type :: rest =>
      ((hinges_lowerType type).bind fun first _ => (hinges_lowerTypes rest).form (first :: ·)).of_iff
        (by simp [typesNodes])

end

theorem hinges_lowerTypeSuffix (type : Option TypeRef) :
    HingesOn (lowerTypeSuffix type) (AllFit table (optionTypeNodes type)) := by
  cases type with
  | none => exact (HingesOn.ok _).of_iff (by simp [optionTypeNodes])
  | some type => exact (hinges_lowerType table type).form (.mark ":" :: ·)

/-! ### Expressions -/

theorem fits_call {context : Context} {receiver : Receiver} {span : Span} {callee : Expr}
    {arguments : List Expr} :
    Node.Fits context.table (.expr receiver (.call span callee arguments)) ↔
      ∀ info, calledClass? context callee = some info → info.hasNew = false → arguments = [] := by
  cases callee <;> simp [Node.Fits, calledClass?]

theorem length_lowerExprs {context : Context} {exprs : List Expr} {parts : List Tokens}
    (lowered : lowerExprs context exprs = .ok parts) : parts.length = exprs.length := by
  induction exprs generalizing parts with
  | nil =>
      obtain rfl := Except.ok.inj lowered
      rfl
  | cons expr rest ih =>
      obtain ⟨first, _, lowered⟩ := Lowered.bind_eq_ok.mp lowered
      obtain ⟨later, there, lowered⟩ := Lowered.bind_eq_ok.mp lowered
      obtain rfl := Except.ok.inj lowered
      rw [List.length_cons, List.length_cons, ih there]

/-- A class is called by its name. -/
theorem exists_ident_of_calledClass? {context : Context} {callee : Expr} {info : ClassInfo}
    (called : calledClass? context callee = some info) : ∃ span, callee = .ident span info.name := by
  cases callee with
  | ident span name =>
      have named : info.name = name := by simpa using List.find?_some called
      exact ⟨span, named ▸ rfl⟩
  | _ => cases called

theorem exists_string_of_literal {context : Context} {left right : Expr} {op : BinaryOp}
    {value : String} (found : rightOperand context left op right = .literal value) :
    ∃ span, right = .string span value := by
  unfold rightOperand at found
  split at found
  · cases right with
    | string span value => exact ⟨span, by cases found; rfl⟩
    | _ =>
        dsimp only at found
        split at found <;> cases found
  · cases found

theorem hinges_lowerConstruction (info : ClassInfo) (arguments : List Tokens) :
    HingesOn (lowerConstruction info arguments)
      (Node.Fits table (.name info.name) ∧ (info.hasNew = false → arguments = [])) := by
  refine (hinges_identifier table info.name).bind fun token _ => ?_
  cases built : info.hasNew with
  | true => exact (HingesOn.ok _).of_iff (by simp)
  | false =>
      cases arguments with
      | nil => exact (HingesOn.ok _).of_iff (by simp)
      | cons first rest => exact (HingesOn.error (by simp)).of_iff (by simp)

variable (context : Context)

mutual

theorem hinges_lowerExpr (usage : Usage) : (expr : Expr) →
    HingesOn (lowerExpr context usage expr)
      (AllFit context.table (exprNodes context.receiver expr))
  | .int _ value => by
      rw [lowerExpr]
      exact (HingesOn.ok _).of_iff (by simp [exprNodes, Node.Fits])
  | .float _ value => by
      rw [lowerExpr, lowerFloat]
      by_cases finite : value.isFinite = true
      · rw [if_pos finite]
        exact (HingesOn.ok _).of_iff
          (by simp [exprNodes, Node.Fits, finite])
      · rw [if_neg finite]
        exact (HingesOn.error (by simp)).of_iff
          (by simp [exprNodes, Node.Fits, finite])
  | .string _ _ => by
      rw [lowerExpr]
      exact (HingesOn.ok _).of_iff (by simp [exprNodes, Node.Fits])
  | .bool _ true | .bool _ false | .null _ => by
      rw [lowerExpr]
      exact (HingesOn.ok _).of_iff (by simp [exprNodes, Node.Fits])
  | .ident _ name => by
      rw [lowerExpr]
      exact ((hinges_identifier context.table name).form ([·])).of_iff
        (by simp [exprNodes, Node.Fits])
  | .this _ => by
      rw [lowerExpr]
      cases receiver : context.receiver with
      | absent =>
          exact (HingesOn.error (by simp)).of_iff
            (by simp [exprNodes, Node.Fits])
      | borrowed | built =>
          exact (HingesOn.ok _).of_iff
            (by simp [exprNodes, Node.Fits])
  | .field span base name => by
      rw [lowerExpr]
      exact ((hinges_lowerExpr .place base).bind fun _ _ =>
        (hinges_identifier context.table name).form _).of_iff
          (by simp [exprNodes, Node.Fits])
  | .call _ callee arguments => by
      -- Of a class only the number of the arguments is asked, and lowering keeps it.
      rw [lowerExpr]
      refine ((hinges_lowerExprs arguments).bind fun parts lowered =>
        show HingesOn _ (AllFit context.table (exprNodes context.receiver callee) ∧
          ∀ info, calledClass? context callee = some info → info.hasNew = false →
            arguments = []) from ?_).of_iff
        (by rw [exprNodes, allFit_cons, allFit_append, fits_call, ← and_assoc, and_comm])
      cases called : calledClass? context callee with
      | none => exact ((hinges_lowerExpr .place callee).form _).of_iff (by simp)
      | some info =>
          obtain ⟨span, rfl⟩ := exists_ident_of_calledClass? called
          have none : parts = [] ↔ arguments = [] := by
            rw [← List.length_eq_zero_iff, length_lowerExprs lowered, List.length_eq_zero_iff]
          exact (hinges_lowerConstruction context.table info parts).of_iff
            (by simp [exprNodes, Node.Fits, none])
  | .methodCall _ receiver name arguments => by
      rw [lowerExpr]
      exact ((hinges_lowerExpr .place receiver).bind fun _ _ =>
        (hinges_identifier context.table name).bind fun _ _ =>
          (hinges_lowerExprs arguments).form _).of_iff
            (by simp [exprNodes, Node.Fits])
  | .unary _ op operand => by
      rw [lowerExpr]
      exact ((hinges_lowerExpr .value operand).form _).of_iff
        (by simp [exprNodes, Node.Fits])
  | .binary _ left op right => by
      rw [lowerExpr]
      refine ((hinges_lowerExpr .value left).bind fun left' _ =>
        show HingesOn _ (AllFit context.table (exprNodes context.receiver right)) from ?_).of_iff
          (by simp [exprNodes, Node.Fits])
      -- The right operand has ways of its own to be written, each of which asks the same of it.
      cases how : rightOperand context left op right with
      | literal value =>
          obtain ⟨span, rfl⟩ := exists_string_of_literal how
          exact (HingesOn.ok _).of_iff (by simp [exprNodes, Node.Fits])
      | borrowed => exact (hinges_lowerExpr .place right).form _
      | plain => exact (hinges_lowerExpr .value right).form _
  | .paren _ inner => by
      rw [lowerExpr]
      exact ((hinges_lowerExpr usage inner).form _).of_iff
        (by simp [exprNodes, Node.Fits])

theorem hinges_lowerExprs : (exprs : List Expr) →
    HingesOn (lowerExprs context exprs) (AllFit context.table (exprsNodes context.receiver exprs))
  | [] => (HingesOn.ok []).of_iff (by simp [exprsNodes])
  | expr :: rest => by
      rw [lowerExprs]
      exact ((hinges_lowerExpr .value expr).bind fun first _ =>
        (hinges_lowerExprs rest).form (first :: ·)).of_iff
          (by simp [exprsNodes])

end

/-! ### Statements -/

theorem hinges_lowerDeclare (name : String) (type : Option TypeRef) (value : Option Expr) :
    HingesOn (lowerDeclare context name type value)
      (Node.Fits context.table (.name name) ∧ AllFit context.table (optionTypeNodes type) ∧
        AllFit context.table (optionNodes context.receiver value)) := by
  refine (hinges_identifier context.table name).bind fun token _ =>
    (hinges_lowerTypeSuffix context.table type).bind fun suffix _ => ?_
  cases value with
  | none => exact (HingesOn.ok _).of_iff (by simp [optionNodes])
  | some value => exact (hinges_lowerExpr context .value value).form _

theorem hinges_lowerGiveBack (span : Span) (value : Option Expr) :
    HingesOn (lowerGiveBack context value)
      (AllFit context.table (stmtNodes context.receiver (.giveBack span value))) := by
  cases value with
  | none =>
      rw [lowerGiveBack]
      split <;> exact (HingesOn.ok _).of_iff (by simp [stmtNodes, optionNodes, Node.Fits])
  | some value =>
      rw [lowerGiveBack]
      split
      · next built =>
        exact (HingesOn.error (by simp)).of_iff (by simp [stmtNodes, Node.Fits, built])
      · next other =>
        exact ((hinges_lowerExpr context .value value).form _).of_iff
          (by simp [stmtNodes, optionNodes, Node.Fits, other])

mutual

theorem hinges_lowerStmt : (stmt : Stmt) →
    HingesOn (lowerStmt context stmt) (AllFit context.table (stmtNodes context.receiver stmt))
  | .declare _ name type value =>
      (hinges_lowerDeclare context name type value).of_iff (by simp [stmtNodes, Node.Fits])
  | .assign _ target value => by
      rw [lowerStmt]
      exact ((hinges_lowerExpr context .place target).bind fun _ _ =>
        (hinges_lowerExpr context .value value).form _).of_iff (by simp [stmtNodes, Node.Fits])
  | .giveBack span value => hinges_lowerGiveBack context span value
  | .choose _ condition thenBody none => by
      rw [lowerStmt]
      exact ((hinges_lowerExpr context .value condition).bind fun _ _ =>
        (hinges_lowerBody thenBody).form _).of_iff (by simp [stmtNodes, Node.Fits])
  | .choose _ condition thenBody (some elseBody) => by
      rw [lowerStmt]
      exact ((hinges_lowerExpr context .value condition).bind fun _ _ =>
        (hinges_lowerBody thenBody).bind fun _ _ => (hinges_lowerElse elseBody).form _).of_iff
          (by simp [stmtNodes, Node.Fits])
  | .repeatWhile _ condition body => by
      rw [lowerStmt]
      exact ((hinges_lowerExpr context .value condition).bind fun _ _ =>
        (hinges_lowerBody body).form _).of_iff (by simp [stmtNodes, Node.Fits])
  | .evaluate _ expr => by
      rw [lowerStmt]
      exact ((hinges_lowerExpr context .value expr).form ended).of_iff
        (by simp [stmtNodes, Node.Fits])

theorem hinges_lowerBody : (body : List Stmt) →
    HingesOn (lowerBody context body) (AllFit context.table (bodyNodes context.receiver body))
  | [] => (HingesOn.ok []).of_iff (by simp [bodyNodes])
  | stmt :: rest => by
      rw [lowerBody]
      exact ((hinges_lowerStmt stmt).bind fun first _ => (hinges_lowerBody rest).form (first ++ ·)).of_iff
        (by simp [bodyNodes])

/-- Behind an `else` it makes no difference whether the body is written with braces. -/
theorem hinges_lowerElse : (body : List Stmt) →
    HingesOn (lowerElse context body) (AllFit context.table (bodyNodes context.receiver body))
  | [] => (HingesOn.ok _).of_iff (by simp [bodyNodes])
  | [only] => by
      rw [lowerElse]
      exact ((hinges_lowerStmt only).form _).of_iff (by simp [bodyNodes])
  | first :: second :: rest => by
      rw [lowerElse]
      exact ((hinges_lowerStmt first).bind fun _ _ => (hinges_lowerStmt second).bind fun _ _ =>
        (hinges_lowerBody rest).form _).of_iff (by simp [bodyNodes])

end

/-! ### Functions -/

theorem hinges_lowerParam (param : Param) :
    HingesOn (lowerParam context param) (AllFit context.table (paramNodes param)) :=
  ((hinges_identifier context.table param.name).bind fun _ _ =>
    (hinges_lowerType context.table param.type).form _).of_iff (by simp [paramNodes])

theorem hinges_lowerParams (params : List Param) :
    HingesOn (lowerParams context params) (AllFit context.table (params.flatMap paramNodes)) :=
  (HingesOn.mapM fun param _ => hinges_lowerParam context param).of_iff allFit_flatMap.symm

theorem hinges_lowerReturnType (type : TypeRef) :
    HingesOn (lowerReturnType type) (AllFit table (typeNodes type)) := by
  unfold lowerReturnType
  split
  · next void =>
    cases type with
    | void span => exact (HingesOn.ok []).of_iff (by simp [typeNodes, Node.Fits])
    | _ => cases void
  · exact (hinges_lowerType table type).form _

theorem hinges_lowerMethod (receiver : List Tokens) (method : Method) :
    HingesOn (lowerMethod context receiver method)
      (AllFit context.table (methodNodes context.receiver method)) :=
  ((hinges_identifier context.table method.name).bind fun _ _ =>
    (hinges_lowerParams context method.params).bind fun _ _ =>
      (hinges_lowerReturnType context.table method.returnType).bind fun _ _ =>
        (hinges_lowerBody context method.body).form _).of_iff
          (by simp [methodNodes])

end DataClass.Lowering
