import DataClass.Lowering.Program
import DataClass.Proofs.Program.Canonical
namespace DataClass.Lowering

/-! Lowering looks at no place and no tag, and a builtin type is lowered in the same way under each of
its spellings. So a program is lowered as what is left of it without these. What is known about
classes keeps their types with their places, so it is freed from them too. -/

/-! ### Types -/

theorem builtin?_canonicalPath (path : List String) :
    builtin? (BuiltinType.canonicalPath path) = builtin? path := by
  match path with
  | [name] => exact BuiltinType.ofSpelling?_canonicalName name
  | [] => rfl
  | _ :: _ :: _ => rfl

theorem canonicalPath_of_builtin? {path : List String} (user : builtin? path = none) :
    BuiltinType.canonicalPath path = path := by
  match path with
  | [name] =>
      have user : BuiltinType.ofSpelling? name = none := user
      simp [BuiltinType.canonicalPath, BuiltinType.canonicalName, user]
  | [] => rfl
  | _ :: _ :: _ => rfl

theorem typePath_canonicalPath (path : List String) (arguments : Nat) :
    typePath (BuiltinType.canonicalPath path) arguments = typePath path arguments := by
  unfold typePath
  rw [builtin?_canonicalPath]
  cases found : builtin? path with
  | some type => rfl
  | none => rw [canonicalPath_of_builtin? found]

mutual

theorem lowerType_canonical : (type : TypeRef) → lowerType type.canonical = lowerType type
  | .named _ path arguments => by
      simp only [TypeRef.canonical, lowerType, lowerTypes_canonical arguments, typePath_canonicalPath]
  | .array _ element => by
      simp only [TypeRef.canonical, lowerType, lowerType_canonical element]
  | .void _ => rfl

theorem lowerTypes_canonical : (types : List TypeRef) →
    lowerTypes (TypeRef.canonicalAll types) = lowerTypes types
  | [] => rfl
  | type :: rest => by
      simp only [TypeRef.canonicalAll, lowerTypes, lowerType_canonical type, lowerTypes_canonical rest]

end

theorem simpleBuiltin?_canonical (type : TypeRef) :
    simpleBuiltin? type.canonical = simpleBuiltin? type := by
  cases type with
  | named span path arguments =>
      cases arguments with
      | nil => exact builtin?_canonicalPath path
      | cons first rest => rfl
  | array span element => rfl
  | void span => rfl

theorem isCopyType_canonical (type : TypeRef) : isCopyType type.canonical = isCopyType type := by
  unfold isCopyType
  rw [simpleBuiltin?_canonical]

theorem isStringType_canonical (type : TypeRef) :
    isStringType type.canonical = isStringType type := by
  unfold isStringType
  rw [simpleBuiltin?_canonical]

theorem inferredType?_erase (expr : Expr) :
    inferredType? expr.erase = (inferredType? expr).map TypeRef.canonical := by
  cases expr <;> simp [inferredType?, builtinRef, TypeRef.canonical, TypeRef.canonicalAll,
    BuiltinType.canonicalPath, BuiltinType.canonicalName, BuiltinType.ofSpelling?_canonical]

/-! ### What is known about classes -/

namespace ClassInfo

def canonical (info : ClassInfo) : ClassInfo :=
  { info with fieldTypes := info.fieldTypes.map fun entry => (entry.1, entry.2.canonical) }

theorem fieldType?_canonical (info : ClassInfo) (name : String) :
    info.canonical.fieldType? name = (info.fieldType? name).map TypeRef.canonical := by
  unfold fieldType? canonical
  induction info.fieldTypes with
  | nil => rfl
  | cons entry rest ih =>
      obtain ⟨other, type⟩ := entry
      simp only [List.map_cons, List.lookup_cons, ih]
      cases name == other <;> rfl

end ClassInfo

theorem knownType?_canonical (field : Field) :
    knownType? field.canonical = (knownType? field).map TypeRef.canonical := by
  obtain ⟨tags, isPublic, name, type, default⟩ := field
  cases type with
  | some type => rfl
  | none =>
      cases default with
      | none => rfl
      | some default => exact inferredType?_erase default

/-- The name of a field with its known type. -/
def namedType? (entry : FieldMember) : Option (String × TypeRef) :=
  (knownType? entry.field).map (entry.field.name, ·)

theorem knownTypes_eq_reverse (fields : List FieldMember) :
    knownTypes fields = (fields.filterMap namedType?).reverse := by
  rw [knownTypes, ← List.append_nil (fields.filterMap namedType?).reverse]
  generalize ([] : List (String × TypeRef)) = types
  induction fields generalizing types with
  | nil => rfl
  | cons entry rest ih =>
      rw [List.foldl_cons, ih, List.filterMap_cons, namedType?]
      cases knownType? entry.field <;> simp

theorem knownTypes_canonical (fields : List FieldMember) :
    knownTypes (fields.map FieldMember.canonical) =
      (knownTypes fields).map fun entry => (entry.1, entry.2.canonical) := by
  have each : namedType? ∘ FieldMember.canonical =
      fun entry => (namedType? entry).map fun entry => (entry.1, entry.2.canonical) := by
    funext entry
    simp only [Function.comp, namedType?, FieldMember.canonical, knownType?_canonical,
      Option.map_map]
    rfl
  rw [knownTypes_eq_reverse, knownTypes_eq_reverse, List.filterMap_map, each, List.map_reverse,
    List.map_filterMap]

theorem isBuilder_canonical (member : Member) : isBuilder member.canonical = isBuilder member := by
  cases member <;> simp [Member.canonical, isBuilder]

theorem ClassInfo.ofClass_canonical (decl : Class) :
    ClassInfo.ofClass decl.canonical = (ClassInfo.ofClass decl).canonical := by
  have builders : isBuilder ∘ Member.canonical = isBuilder := funext isBuilder_canonical
  simp only [ofClass, canonical, Class.name_canonical, Class.fields_canonical, knownTypes_canonical,
    Class.members_canonical, List.any_map, builders]

/-! ### What bodies write to -/

theorem root?_erase : (expr : Expr) → root? expr.erase = root? expr
  | .field _ base _ => root?_erase base
  | .paren _ inner => root?_erase inner
  | .int _ _ | .float _ _ | .string _ _ | .bool _ _ | .null _ | .ident _ _ | .this _ | .unary _ _ _
  | .binary _ _ _ _ => rfl
  | .call _ _ _ | .methodCall _ _ _ _ => by simp [root?]

variable {isMutating : String → Bool}

mutual

theorem exprWrites_erase : (expr : Expr) → exprWrites isMutating expr.erase = exprWrites isMutating expr
  | .int _ _ | .float _ _ | .string _ _ | .bool _ _ | .null _ | .ident _ _ | .this _ => rfl
  | .field _ base _ => exprWrites_erase base
  | .call _ callee arguments => by
      simp only [Expr.erase_call, exprWrites, exprWrites_erase callee, exprsWrites_erase arguments]
  | .methodCall _ receiver _ arguments => by
      simp only [Expr.erase_methodCall, exprWrites, root?_erase, exprWrites_erase receiver,
        exprsWrites_erase arguments]
  | .unary _ _ operand => exprWrites_erase operand
  | .binary _ left _ right => by
      simp only [Expr.erase_binary, exprWrites, exprWrites_erase left, exprWrites_erase right]
  | .paren _ inner => exprWrites_erase inner

theorem exprsWrites_erase : (exprs : List Expr) →
    exprsWrites isMutating (exprs.map Expr.erase) = exprsWrites isMutating exprs
  | [] => rfl
  | expr :: rest => by
      simp only [List.map_cons, exprsWrites, exprWrites_erase expr, exprsWrites_erase rest]

end

theorem optionWrites_erase (value : Option Expr) :
    optionWrites isMutating (value.map Expr.erase) = optionWrites isMutating value := by
  cases value with
  | none => rfl
  | some expr => exact exprWrites_erase expr

mutual

theorem stmtWrites_canonical : (stmt : Stmt) →
    stmtWrites isMutating stmt.canonical = stmtWrites isMutating stmt
  | .declare _ _ _ value => by
      simp only [Stmt.canonical, stmtWrites, optionWrites_erase]
  | .assign _ target value => by
      simp only [Stmt.canonical, stmtWrites, root?_erase, exprWrites_erase]
  | .giveBack _ value => by
      simp only [Stmt.canonical, stmtWrites, optionWrites_erase]
  | .choose _ condition thenBody none => by
      simp only [Stmt.canonical, stmtWrites, exprWrites_erase, bodyWrites_canonical thenBody]
  | .choose _ condition thenBody (some elseBody) => by
      simp only [Stmt.canonical, stmtWrites, exprWrites_erase, bodyWrites_canonical thenBody,
        bodyWrites_canonical elseBody]
  | .repeatWhile _ condition body => by
      simp only [Stmt.canonical, stmtWrites, exprWrites_erase, bodyWrites_canonical body]
  | .evaluate _ expr => by
      simp only [Stmt.canonical, stmtWrites, exprWrites_erase]

theorem bodyWrites_canonical : (body : List Stmt) →
    bodyWrites isMutating (Stmt.canonicalAll body) = bodyWrites isMutating body
  | [] => rfl
  | stmt :: rest => by
      simp only [Stmt.canonicalAll, bodyWrites, stmtWrites_canonical stmt, bodyWrites_canonical rest]

end

/-! ### Collecting -/

mutual

theorem classTree_canonical : (decl : Class) →
    classTree decl.canonical = (classTree decl).map Class.canonical
  | ⟨_, _, _, members⟩ => by
      simp only [Class.canonical, classTree, List.map_cons, memberTrees_canonical members]

theorem memberTree_canonical : (member : Member) →
    memberTree member.canonical = (memberTree member).map Class.canonical
  | .nested _ decl => by
      simp only [Member.canonical, memberTree, classTree_canonical decl]
  | .field _ _ | .method _ _ | .constructor _ _ | .initializer _ _ => by
      simp [Member.canonical, memberTree]

theorem memberTrees_canonical : (members : List Member) →
    memberTrees (Member.canonicalAll members) = (memberTrees members).map Class.canonical
  | [] => by simp [Member.canonicalAll, memberTrees]
  | member :: rest => by
      simp only [Member.canonicalAll, memberTrees, List.map_append, memberTree_canonical member,
        memberTrees_canonical rest]

end

theorem allClasses_canonical (program : Program) :
    allClasses program.canonical = (allClasses program).map Class.canonical := by
  simp only [allClasses, Program.classes_canonical, List.flatMap_map, List.map_flatMap,
    classTree_canonical]

namespace OwnedMethod

def canonical (owned : OwnedMethod) : OwnedMethod := ⟨owned.owner, owned.method.canonical⟩

end OwnedMethod

theorem ownedMethods_canonical (classes : List Class) :
    ownedMethods (classes.map Class.canonical) =
      (ownedMethods classes).map OwnedMethod.canonical := by
  simp only [ownedMethods, List.flatMap_map, List.map_flatMap, Class.methods_canonical, List.map_map,
    Class.name_canonical]
  rfl

namespace ClassTable

def canonical (table : ClassTable) : ClassTable :=
  { table with classes := table.classes.map ClassInfo.canonical }

theorem find?_canonical (table : ClassTable) (name : String) :
    table.canonical.find? name = (table.find? name).map ClassInfo.canonical := by
  rw [find?, find?, canonical, List.find?_map]
  rfl

theorem isMutating_canonical (table : ClassTable) : table.canonical.isMutating = table.isMutating :=
  rfl

theorem enterAll_canonical (table : ClassTable) (classes : List Class) :
    table.canonical.enterAll (classes.map Class.canonical) =
      ((table.enterAll classes).1.canonical, (table.enterAll classes).2) := by
  induction classes generalizing table with
  | nil => rfl
  | cons decl rest ih =>
      have entered : table.canonical.enter (.ofClass decl.canonical) =
          (table.enter (.ofClass decl)).canonical := by
        rw [ClassInfo.ofClass_canonical]
        rfl
      rw [List.map_cons, enterAll, enterAll, entered, find?_canonical, Class.name_canonical,
        Option.isSome_map, ih]
      split <;> rfl

theorem mark_canonical (table : ClassTable) (owner name : String) :
    table.canonical.mark owner name = (table.mark owner name).canonical := by
  have each (info : ClassInfo) : info.canonical.mark owner name = (info.mark owner name).canonical := by
    by_cases own : info.name = owner <;> simp [ClassInfo.mark, ClassInfo.canonical, own]
  simp only [mark, canonical, List.map_map, Function.comp_def, each]

theorem look?_canonical (table : ClassTable) (owned : OwnedMethod) :
    table.canonical.look? owned.canonical = (table.look? owned).map canonical := by
  have writes : writesThis table.isMutating owned.canonical.method.body =
      writesThis table.isMutating owned.method.body :=
    congrArg (List.contains · Root.this) (bodyWrites_canonical owned.method.body)
  have found := table.find?_canonical owned.owner
  cases known : table.find? owned.owner with
  | none =>
      rw [known] at found
      simp only [look?, OwnedMethod.canonical, found, known, Option.map_none]
  | some info =>
      rw [known] at found
      unfold look?
      rw [isMutating_canonical, writes, mark_canonical]
      simp only [OwnedMethod.canonical, found, known, Option.map_some]
      change (if info.mutators.contains owned.method.name then _ else _) = _
      split
      · rfl
      · split <;> rfl

theorem pass_canonical (table : ClassTable) (methods : List OwnedMethod) :
    table.canonical.pass (methods.map OwnedMethod.canonical) =
      ((table.pass methods).1.canonical, (table.pass methods).2) := by
  induction methods generalizing table with
  | nil => rfl
  | cons owned rest ih =>
      rw [List.map_cons, pass, pass, look?_canonical]
      cases table.look? owned with
      | none => exact ih table
      | some noted =>
          simp only [Option.map_some, ih noted]

theorem grow_canonical (table : ClassTable) (methods : List OwnedMethod) :
    table.canonical.grow (methods.map OwnedMethod.canonical) = (table.grow methods).canonical := by
  induction table using ClassTable.grow.induct methods with
  | case1 table outcome changed ih =>
      rw [grow.eq_1 table.canonical, grow.eq_1 table, pass_canonical]
      exact (if_pos changed).trans (ih.trans (congrArg canonical (if_pos changed).symm))
  | case2 table outcome unchanged =>
      rw [grow.eq_1 table.canonical, grow.eq_1 table, pass_canonical]
      exact (if_neg unchanged).trans (congrArg canonical (if_neg unchanged).symm)

/-- What is learned about the classes of a program does not hang on what was known before. -/
theorem collect_canonical (program : Program) (before other : ClassTable) :
    before.collect program.canonical =
      ((other.collect program).1.canonical, (other.collect program).2) := by
  have entered : before.clear.enterAll ((allClasses program).map Class.canonical) =
      ((other.clear.enterAll (allClasses program)).1.canonical,
        (other.clear.enterAll (allClasses program)).2) := enterAll_canonical empty (allClasses program)
  unfold collect
  simp only [allClasses_canonical, entered]
  obtain ⟨table, fault⟩ := other.clear.enterAll (allClasses program)
  cases fault with
  | some fault => rfl
  | none => simp only [ownedMethods_canonical, grow_canonical]

end ClassTable

/-! ### Bodies -/

namespace Context

def canonical (context : Context) : Context :=
  ⟨context.table.canonical, context.info.map ClassInfo.canonical, context.receiver,
    Stmt.canonicalAll context.body⟩

theorem isMutable_canonical (context : Context) (name : String) :
    context.canonical.isMutable name = context.isMutable name :=
  congrArg (List.contains · (Root.variable name)) (bodyWrites_canonical context.body)

theorem thisField?_erase (expr : Expr) : expr.erase.thisField? = expr.thisField? := by
  cases expr with
  | field span base name => cases base <;> simp [Expr.thisField?]
  | _ => simp [Expr.thisField?]

theorem thisFieldType?_canonical (context : Context) (expr : Expr) :
    context.canonical.thisFieldType? expr.erase =
      (context.thisFieldType? expr).map TypeRef.canonical := by
  unfold thisFieldType?
  rw [thisField?_erase]
  cases expr.thisField? with
  | none => rfl
  | some name =>
      obtain ⟨table, info, receiver, body⟩ := context
      cases info with
      | none => rfl
      | some info => exact info.fieldType?_canonical name

theorem isCopyField_canonical (context : Context) (expr : Expr) :
    context.canonical.isCopyField expr.erase = context.isCopyField expr := by
  unfold isCopyField
  rw [thisFieldType?_canonical]
  cases context.thisFieldType? expr with
  | none => rfl
  | some type => exact isCopyType_canonical type

theorem isStringField_canonical (context : Context) (expr : Expr) :
    context.canonical.isStringField expr.erase = context.isStringField expr := by
  unfold isStringField
  rw [thisFieldType?_canonical]
  cases context.thisFieldType? expr with
  | none => rfl
  | some type => exact isStringType_canonical type

theorem isStringStart_canonical (context : Context) (expr : Expr) :
    context.canonical.isStringStart expr.erase = context.isStringStart expr := by
  have field := context.isStringField_canonical expr
  cases expr <;> first | rfl | simpa [isStringStart] using field

end Context

theorem rightOperand_canonical (context : Context) (left : Expr) (op : BinaryOp) (right : Expr) :
    rightOperand context.canonical left.erase op right.erase = rightOperand context left op right := by
  unfold rightOperand
  have field := context.isStringField_canonical right
  have start := context.isStringStart_canonical left
  split
  · cases right with
    | string span value => rfl
    | _ =>
        simp at field
        simp [start, field]
  · rfl

theorem calledClass?_canonical (context : Context) (callee : Expr) :
    calledClass? context.canonical callee.erase =
      (calledClass? context callee).map ClassInfo.canonical := by
  cases callee with
  | ident span name => exact context.table.find?_canonical name
  | call | methodCall => simp [calledClass?]
  | _ => rfl

mutual

theorem lowerExpr_canonical (context : Context) (usage : Usage) : (expr : Expr) →
    lowerExpr context.canonical usage expr.erase = lowerExpr context usage expr
  | .int _ _ | .float _ _ | .string _ _ | .bool _ true | .bool _ false | .null _ | .ident _ _
  | .this _ => rfl
  | .field span base name => by
      have copied := context.isCopyField_canonical (.field span base name)
      rw [Expr.erase_field] at copied ⊢
      simp only [lowerExpr, lowerExpr_canonical context .place base, copied]
  | .call _ callee arguments => by
      simp only [Expr.erase_call, lowerExpr, lowerExprs_canonical context arguments,
        calledClass?_canonical, lowerExpr_canonical context .place callee]
      cases calledClass? context callee <;> rfl
  | .methodCall _ receiver _ arguments => by
      simp only [Expr.erase_methodCall, lowerExpr, lowerExpr_canonical context .place receiver,
        lowerExprs_canonical context arguments]
  | .unary _ _ operand => by
      simp only [Expr.erase_unary, lowerExpr, lowerExpr_canonical context .value operand]
  | .binary _ left _ right => by
      simp only [Expr.erase_binary, lowerExpr, rightOperand_canonical,
        lowerExpr_canonical context .value left, lowerExpr_canonical context .place right,
        lowerExpr_canonical context .value right]
  | .paren _ inner => by
      simp only [Expr.erase_paren, lowerExpr, lowerExpr_canonical context usage inner]

theorem lowerExprs_canonical (context : Context) : (exprs : List Expr) →
    lowerExprs context.canonical (exprs.map Expr.erase) = lowerExprs context exprs
  | [] => rfl
  | expr :: rest => by
      simp only [List.map_cons, lowerExprs, lowerExpr_canonical context .value expr,
        lowerExprs_canonical context rest]

end

theorem binding_canonical (context : Context) (name : String) (token : TargetToken) :
    binding context.canonical name token = binding context name token := by
  unfold binding
  rw [Context.isMutable_canonical]

theorem lowerDeclare_canonical (context : Context) (name : String) (type : Option TypeRef)
    (value : Option Expr) :
    lowerDeclare context.canonical name (type.map TypeRef.canonical) (value.map Expr.erase) =
      lowerDeclare context name type value := by
  have suffix : lowerTypeSuffix (type.map TypeRef.canonical) = lowerTypeSuffix type := by
    cases type with
    | none => rfl
    | some type => simp only [Option.map_some, lowerTypeSuffix, lowerType_canonical]
  simp only [lowerDeclare, suffix, binding_canonical]
  cases value with
  | none => rfl
  | some value => simp only [Option.map_some, lowerExpr_canonical]

theorem lowerGiveBack_canonical (context : Context) (value : Option Expr) :
    lowerGiveBack context.canonical (value.map Expr.erase) = lowerGiveBack context value := by
  cases value with
  | none => rfl
  | some value =>
      simp only [Option.map_some, lowerGiveBack, lowerExpr_canonical]
      rfl

theorem isChoice_canonical (stmt : Stmt) : isChoice stmt.canonical = isChoice stmt := by
  match stmt with
  | .choose _ _ _ none | .choose _ _ _ (some _) => rfl
  | .declare _ _ _ _ | .assign _ _ _ | .giveBack _ _ | .repeatWhile _ _ _ | .evaluate _ _ => rfl

mutual

theorem lowerStmt_canonical (context : Context) : (stmt : Stmt) →
    lowerStmt context.canonical stmt.canonical = lowerStmt context stmt
  | .declare _ name type value => lowerDeclare_canonical context name type value
  | .assign _ target value => by
      simp only [Stmt.canonical, lowerStmt, lowerExpr_canonical]
  | .giveBack _ value => lowerGiveBack_canonical context value
  | .choose _ condition thenBody none => by
      simp only [Stmt.canonical, lowerStmt, lowerExpr_canonical, lowerBody_canonical context thenBody]
  | .choose _ condition thenBody (some elseBody) => by
      simp only [Stmt.canonical, lowerStmt, lowerExpr_canonical, lowerBody_canonical context thenBody,
        lowerElse_canonical context elseBody]
  | .repeatWhile _ condition body => by
      simp only [Stmt.canonical, lowerStmt, lowerExpr_canonical, lowerBody_canonical context body]
  | .evaluate _ expr => by
      simp only [Stmt.canonical, lowerStmt, lowerExpr_canonical]

theorem lowerBody_canonical (context : Context) : (body : List Stmt) →
    lowerBody context.canonical (Stmt.canonicalAll body) = lowerBody context body
  | [] => rfl
  | stmt :: rest => by
      simp only [Stmt.canonicalAll, lowerBody, lowerStmt_canonical context stmt,
        lowerBody_canonical context rest]

theorem lowerElse_canonical (context : Context) : (body : List Stmt) →
    lowerElse context.canonical (Stmt.canonicalAll body) = lowerElse context body
  | [] => rfl
  | [only] => by
      simp only [Stmt.canonicalAll, lowerElse, lowerStmt_canonical context only, isChoice_canonical]
  | first :: second :: rest => by
      simp only [Stmt.canonicalAll, lowerElse, lowerStmt_canonical context first,
        lowerStmt_canonical context second, lowerBody_canonical context rest]

end

/-! ### Declarations -/

theorem lowerParams_canonical (context : Context) (params : List Param) :
    lowerParams context.canonical (params.map Param.canonical) = lowerParams context params := by
  have each (param : Param) :
      lowerParam context.canonical param.canonical = lowerParam context param := by
    simp only [lowerParam, Param.canonical, lowerType_canonical, binding_canonical]
  unfold lowerParams
  rw [List.mapM_map]
  exact congrArg (List.mapM · params) (funext each)

theorem lowerReturnType_canonical (type : TypeRef) :
    lowerReturnType type.canonical = lowerReturnType type := by
  simp only [lowerReturnType, TypeRef.isVoid_canonical, lowerType_canonical]

theorem lowerMethod_canonical (context : Context) (receiver : List Tokens) (method : Method) :
    lowerMethod context.canonical receiver method.canonical = lowerMethod context receiver method := by
  simp only [lowerMethod, Method.canonical, lowerParams_canonical, lowerReturnType_canonical,
    lowerBody_canonical]

variable (table : ClassTable) (info : ClassInfo)

theorem lowerFunction_canonical (method : Method) :
    lowerFunction table.canonical method.canonical = lowerFunction table method :=
  lowerMethod_canonical ⟨table, none, .absent, method.body⟩ [] method

theorem lowerClassMethod_canonical (method : Method) :
    lowerClassMethod table.canonical info.canonical method.canonical =
      lowerClassMethod table info method :=
  lowerMethod_canonical ⟨table, some info, .borrowed, method.body⟩ _ method

theorem lowerInitial_canonical (default : Option Expr) :
    lowerInitial table.canonical info.canonical (default.map Expr.erase) =
      lowerInitial table info default := by
  cases default with
  | none => rfl
  | some default => exact lowerExpr_canonical ⟨table, some info, .absent, []⟩ .value default

theorem lowerField_canonical (field : Field) :
    lowerField table.canonical info.canonical field.canonical = lowerField table info field := by
  unfold lowerField
  simp only [Field.canonical, ClassInfo.fieldType?_canonical, lowerInitial_canonical]
  cases info.fieldType? field.name with
  | none => rfl
  | some type => simp only [Option.map_some, lowerType_canonical]

theorem lowerBuilder_canonical (isPublic : Bool) (params : List Param) (body : List Stmt) :
    lowerBuilder table.canonical info.canonical isPublic (params.map Param.canonical)
        (Stmt.canonicalAll body) =
      lowerBuilder table info isPublic params body := by
  have same := lowerParams_canonical ⟨table, some info, .built, body⟩ params
  have stmts := lowerBody_canonical ⟨table, some info, .built, body⟩ body
  simp only [Context.canonical, Option.map_some] at same stmts
  simp only [lowerBuilder, same, stmts]

/-- The body of `new` loses its places and tags with those of the members that it is put together
from. -/
theorem lowerNew_canonical (decl : Class) :
    lowerNew table.canonical info.canonical decl.canonical = lowerNew table info decl := by
  have each : Stmt.canonicalAll = List.map Stmt.canonical := funext Stmt.canonicalAll_eq_map
  have builder := lowerBuilder_canonical table info
  simp only [each] at builder
  unfold lowerNew
  rw [Class.constructors_canonical, Class.initializers_canonical, Class.name_canonical]
  change (if info.hasNew then _ else _) = _
  match decl.members.filterMap Member.constructor? with
  | [] =>
      have built := builder true [] (decl.members.filterMap Member.initializer?).flatten
      simp only [List.map_nil, each, ← List.map_flatten] at built ⊢
      rw [built]
  | [constructor] =>
      simp only [List.map_cons, List.map_nil, Constructor.canonical, each, ← List.map_flatten,
        ← List.map_append, builder]
  | _ :: _ :: _ => rfl

theorem lowerClass_canonical (decl : Class) :
    lowerClass table.canonical decl.canonical = lowerClass table decl := by
  have entries (info : ClassInfo) :
      (fun entry : FieldMember => lowerField table.canonical info.canonical entry.field) ∘
          FieldMember.canonical = fun entry => lowerField table info entry.field :=
    funext fun entry => lowerField_canonical table info entry.field
  have methods (info : ClassInfo) :
      lowerClassMethod table.canonical info.canonical ∘ Method.canonical =
        lowerClassMethod table info :=
    funext (lowerClassMethod_canonical table info)
  have defaults : (fun entry : FieldMember => entry.field.default.isSome) ∘ FieldMember.canonical =
      fun entry => entry.field.default.isSome := funext fun entry => Option.isSome_map
  have new (info : ClassInfo) := lowerNew_canonical table info decl
  have structured (name : TargetToken) (fields : List LoweredField) :
      structureTokens decl.canonical name fields = structureTokens decl name fields := by
    rw [structureTokens, structureTokens, Class.isPublic_canonical]
  unfold lowerClass
  rw [Class.name_canonical, ClassTable.find?_canonical]
  cases table.find? decl.name with
  | none => rfl
  | some info =>
      simp only [Option.map_some, Class.fields_canonical, Class.methods_canonical, List.mapM_map,
        List.any_map, entries, methods, defaults, new, structured]

theorem lowerDeclaration_canonical (declaration : Declaration) :
    lowerDeclaration table.canonical declaration.canonical = lowerDeclaration table declaration := by
  cases declaration with
  | importPath span path => rfl
  | function span method => exact lowerFunction_canonical table method
  | type span decl =>
      have each : lowerClass table.canonical ∘ Class.canonical = lowerClass table :=
        funext (lowerClass_canonical table)
      simp only [Declaration.canonical, lowerDeclaration, classTree_canonical, List.mapM_map, each]

namespace Emitter

theorem lowerProgram_canonical (options : EmitOptions) (program : Program) :
    lowerProgram ⟨options, table.canonical⟩ program.canonical = lowerProgram ⟨options, table⟩ program := by
  have each : lowerDeclaration table.canonical ∘ Declaration.canonical = lowerDeclaration table :=
    funext (lowerDeclaration_canonical table)
  simp only [lowerProgram, Program.canonical, List.mapM_map, each]

theorem emit_canonical (first second : Emitter) (same : first.options = second.options) (program : Program) :
    (first.emit program.canonical).1 = (second.emit program).1 := by
  unfold emit
  rw [ClassTable.collect_canonical program first.table second.table]
  obtain ⟨table, fault⟩ := second.table.collect program
  cases fault with
  | some fault => rfl
  | none =>
      change lowerProgram ⟨first.options, table.canonical⟩ program.canonical =
        lowerProgram ⟨second.options, table⟩ program
      rw [same, lowerProgram_canonical]

theorem options_emit (emitter : Emitter) (program : Program) :
    (emitter.emit program).2.options = emitter.options := by
  unfold emit
  split <;> rfl

theorem options_emitAll (programs : List Program) (emitter : Emitter) :
    (emitter.emitAll programs).options = emitter.options := by
  induction programs generalizing emitter with
  | nil => rfl
  | cons program rest ih => exact (ih _).trans (emitter.options_emit program)

/-- Programs that differ in places, in tags and in the spelling of builtin types only are lowered to
the same tokens, or fail for the same reason. What the emitters have been given before does not
matter, nor whether they could lower it. -/
theorem emit_of_canonical {left right : Program} (same : left.canonical = right.canonical)
    {first second : Emitter} (options : first.options = second.options)
    (earlier other : List Program) :
    ((first.emitAll earlier).emit left).1 = ((second.emitAll other).emit right).1 := by
  have kept : (first.emitAll earlier).options = (second.emitAll other).options := by
    rw [options_emitAll, options_emitAll, options]
  calc ((first.emitAll earlier).emit left).1
    _ = ((second.emitAll other).emit left.canonical).1 := (emit_canonical _ _ kept.symm left).symm
    _ = ((second.emitAll other).emit right).1 := by rw [same, emit_canonical _ _ rfl right]

/-- A class with one field, written at some place, with some tags and some type. -/
def fieldClass (place : Span) (tags : List Tag) (type : String) : Program :=
  ⟨[.type place ⟨tags, true, "Counter",
    [.field place ⟨tags, true, "count", some (.named place [type] []), none⟩]⟩]⟩

theorem emit_of_canonical_fieldClass :
    (fieldClass ⟨3, 9⟩ [⟨⟨0, 2⟩, ["Data"]⟩] "long").canonical =
        (fieldClass .origin [] "int").canonical ∧
      (fresh .standard).options = (fresh .standard).options ∧
      (((fresh .standard).emitAll []).emit (fieldClass ⟨3, 9⟩ [⟨⟨0, 2⟩, ["Data"]⟩] "long")).1 =
        (((fresh .standard).emitAll [fieldClass .origin [] "Box", fieldClass .origin [] "Map"]).emit
          (fieldClass .origin [] "int")).1 :=
  have same : (fieldClass ⟨3, 9⟩ [⟨⟨0, 2⟩, ["Data"]⟩] "long").canonical =
      (fieldClass .origin [] "int").canonical := rfl
  ⟨same, rfl, emit_of_canonical same rfl _ _⟩

end Emitter

end DataClass.Lowering
