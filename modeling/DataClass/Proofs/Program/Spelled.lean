import DataClass.Proofs.Program.Erasure
namespace DataClass

/-! The program that a written program is read as. It has no places, and a name where an infinite
number was written. -/

namespace TypeRef

theorem isVoid_erase (type : TypeRef) : type.erase.isVoid = type.isVoid := by
  cases type <;> rfl

end TypeRef

namespace Expr

mutual

def spelled : Expr → Expr
  | .int _ value => .int .origin value
  | .float _ value => if value.isFinite then .float .origin value else .ident .origin "inf"
  | .string _ value => .string .origin value
  | .bool _ value => .bool .origin value
  | .null _ => .null .origin
  | .ident _ name => .ident .origin name
  | .this _ => .this .origin
  | .field _ base name => .field .origin base.spelled name
  | .call _ callee arguments => .call .origin callee.spelled (spelledAll arguments)
  | .methodCall _ receiver name arguments =>
      .methodCall .origin receiver.spelled name (spelledAll arguments)
  | .unary _ op operand => .unary .origin op operand.spelled
  | .binary _ left op right => .binary .origin left.spelled op right.spelled
  | .paren _ inner => .paren .origin inner.spelled

def spelledAll : List Expr → List Expr
  | [] => []
  | expr :: rest => expr.spelled :: spelledAll rest

end

theorem spelledAll_eq_map (exprs : List Expr) : spelledAll exprs = exprs.map spelled := by
  induction exprs with
  | nil => rfl
  | cons expr rest ih => rw [spelledAll, ih, List.map_cons]

end Expr

namespace Stmt

mutual

def spelled : Stmt → Stmt
  | .declare _ name type value =>
      .declare .origin name (type.map TypeRef.erase) (value.map Expr.spelled)
  | .assign _ target value => .assign .origin target.spelled value.spelled
  | .giveBack _ value => .giveBack .origin (value.map Expr.spelled)
  | .choose _ condition thenBody none =>
      .choose .origin condition.spelled (spelledAll thenBody) none
  | .choose _ condition thenBody (some elseBody) =>
      .choose .origin condition.spelled (spelledAll thenBody) (some (spelledAll elseBody))
  | .repeatWhile _ condition body => .repeatWhile .origin condition.spelled (spelledAll body)
  | .evaluate _ expr => .evaluate .origin expr.spelled

def spelledAll : List Stmt → List Stmt
  | [] => []
  | stmt :: rest => stmt.spelled :: spelledAll rest

end

theorem spelledAll_eq_map (stmts : List Stmt) : spelledAll stmts = stmts.map spelled := by
  induction stmts with
  | nil => rfl
  | cons stmt rest ih => rw [spelledAll, ih, List.map_cons]

end Stmt

namespace Field

def spelled (field : Field) : Field :=
  ⟨field.tags.map Tag.erase, field.isPublic, field.name, field.type.map TypeRef.erase,
    field.default.map Expr.spelled⟩

end Field

namespace Method

def spelled (method : Method) : Method :=
  ⟨method.tags.map Tag.erase, method.isPublic, method.name, method.params.map Param.erase,
    method.returnType.erase, method.body.map Stmt.spelled⟩

end Method

namespace Constructor

def spelled (constructor : Constructor) : Constructor :=
  ⟨constructor.tags.map Tag.erase, constructor.isPublic, constructor.params.map Param.erase,
    constructor.body.map Stmt.spelled⟩

end Constructor

mutual

def Member.spelled : Member → Member
  | .field _ decl => .field .origin decl.spelled
  | .method _ decl => .method .origin decl.spelled
  | .constructor _ decl => .constructor .origin decl.spelled
  | .initializer _ body => .initializer .origin (body.map Stmt.spelled)
  | .nested _ decl => .nested .origin decl.spelled

def Class.spelled : Class → Class
  | ⟨tags, isPublic, name, members⟩ =>
      ⟨tags.map Tag.erase, isPublic, name, Member.spelledAll members⟩

def Member.spelledAll : List Member → List Member
  | [] => []
  | member :: rest => member.spelled :: Member.spelledAll rest

end

theorem Member.spelledAll_eq_map (members : List Member) :
    spelledAll members = members.map spelled := by
  induction members with
  | nil => rfl
  | cons member rest ih => rw [spelledAll, ih, List.map_cons]

theorem Class.spelled_eq (decl : Class) :
    decl.spelled = ⟨decl.tags.map Tag.erase, decl.isPublic, decl.name,
      decl.members.map Member.spelled⟩ := by
  cases decl
  rw [spelled, Member.spelledAll_eq_map]

namespace Declaration

def spelled : Declaration → Declaration
  | .importPath _ path => .importPath .origin path
  | .type _ decl => .type .origin decl.spelled
  | .function _ decl => .function .origin decl.spelled

end Declaration

namespace Program

def spelled (program : Program) : Program := ⟨program.declarations.map Declaration.spelled⟩

end Program

/-! Places do not count for what is read. -/

namespace TypeRef

mutual

theorem erase_erase : (type : TypeRef) → type.erase.erase = type.erase
  | .named _ path arguments => by
      rw [erase_named, erase_named, map_erase_erase arguments]
  | .array _ element => by
      rw [erase_array, erase_array, erase_erase element]
  | .void _ => rfl

theorem map_erase_erase : (types : List TypeRef) → (types.map erase).map erase = types.map erase
  | [] => rfl
  | type :: rest => by
      rw [List.map_cons, List.map_cons, erase_erase type, map_erase_erase rest]

end

end TypeRef

namespace Expr

mutual

theorem spelled_erase : (expr : Expr) → expr.erase.spelled = expr.spelled
  | .int _ _ | .float _ _ | .string _ _ | .bool _ _ | .null _ | .ident _ _ | .this _ => by
      simp [spelled]
  | .field _ base _ => by
      rw [erase_field, spelled, spelled, spelled_erase base]
  | .call _ callee arguments => by
      rw [erase_call, spelled, spelled, spelled_erase callee, spelledAll_erase arguments]
  | .methodCall _ receiver _ arguments => by
      rw [erase_methodCall, spelled, spelled, spelled_erase receiver, spelledAll_erase arguments]
  | .unary _ _ operand => by
      rw [erase_unary, spelled, spelled, spelled_erase operand]
  | .binary _ left _ right => by
      rw [erase_binary, spelled, spelled, spelled_erase left, spelled_erase right]
  | .paren _ inner => by
      rw [erase_paren, spelled, spelled, spelled_erase inner]

theorem spelledAll_erase : (exprs : List Expr) → spelledAll (exprs.map erase) = spelledAll exprs
  | [] => rfl
  | expr :: rest => by
      rw [List.map_cons, spelledAll, spelledAll, spelled_erase expr, spelledAll_erase rest]

end

theorem map_spelled_erase (value : Option Expr) :
    (value.map erase).map spelled = value.map spelled := by
  cases value <;> simp [spelled_erase]

end Expr

namespace Stmt

mutual

theorem spelled_erase : (stmt : Stmt) → stmt.erase.spelled = stmt.spelled
  | .declare _ _ type value => by
      have typed : (type.map TypeRef.erase).map TypeRef.erase = type.map TypeRef.erase := by
        cases type <;> simp [TypeRef.erase_erase]
      rw [erase_declare, spelled, spelled, typed, Expr.map_spelled_erase]
  | .assign _ target value => by
      rw [erase_assign, spelled, spelled, target.spelled_erase, value.spelled_erase]
  | .giveBack _ value => by
      rw [erase_giveBack, spelled, spelled, Expr.map_spelled_erase]
  | .choose _ condition thenBody none => by
      rw [erase_choose, Option.map_none, spelled, spelled, condition.spelled_erase,
        spelledAll_erase thenBody]
  | .choose _ condition thenBody (some elseBody) => by
      rw [erase_choose, Option.map_some, spelled, spelled, condition.spelled_erase,
        spelledAll_erase thenBody, spelledAll_erase elseBody]
  | .repeatWhile _ condition body => by
      rw [erase_repeatWhile, spelled, spelled, condition.spelled_erase, spelledAll_erase body]
  | .evaluate _ expr => by
      rw [erase_evaluate, spelled, spelled, expr.spelled_erase]

theorem spelledAll_erase : (stmts : List Stmt) → spelledAll (stmts.map erase) = spelledAll stmts
  | [] => rfl
  | stmt :: rest => by
      rw [List.map_cons, spelledAll, spelledAll, spelled_erase stmt, spelledAll_erase rest]

end

theorem map_spelled_erase (body : List Stmt) : (body.map erase).map spelled = body.map spelled := by
  rw [← spelledAll_eq_map, ← spelledAll_eq_map, spelledAll_erase]

end Stmt

namespace Tag

theorem map_erase_erase (tags : List Tag) : (tags.map erase).map erase = tags.map erase := by
  simp [erase, mapSpans]

end Tag

namespace Param

theorem map_erase_erase (params : List Param) :
    (params.map erase).map erase = params.map erase := by
  have again (param : Param) : param.erase.erase = param.erase :=
    congrArg (Param.mk .origin param.name) param.type.erase_erase
  simp [again]

end Param

namespace Field

theorem spelled_erase (field : Field) : field.erase.spelled = field.spelled := by
  obtain ⟨tags, isPublic, name, type, default⟩ := field
  have typed : (type.map TypeRef.erase).map TypeRef.erase = type.map TypeRef.erase := by
    cases type <;> simp [TypeRef.erase_erase]
  simp only [erase_mk, spelled, Tag.map_erase_erase, typed, Expr.map_spelled_erase]

end Field

namespace Method

theorem spelled_erase (method : Method) : method.erase.spelled = method.spelled := by
  obtain ⟨tags, isPublic, name, params, returnType, body⟩ := method
  simp only [erase_mk, spelled, Tag.map_erase_erase, Param.map_erase_erase, TypeRef.erase_erase,
    Stmt.map_spelled_erase]

end Method

namespace Constructor

theorem spelled_erase (constructor : Constructor) :
    constructor.erase.spelled = constructor.spelled := by
  obtain ⟨tags, isPublic, params, body⟩ := constructor
  simp only [erase_mk, spelled, Tag.map_erase_erase, Param.map_erase_erase, Stmt.map_spelled_erase]

end Constructor

mutual

theorem Member.spelled_erase : (member : Member) → member.erase.spelled = member.spelled
  | .field _ decl => by
      rw [Member.erase_field, Member.spelled, Member.spelled, decl.spelled_erase]
  | .method _ decl => by
      rw [Member.erase_method, Member.spelled, Member.spelled, decl.spelled_erase]
  | .constructor _ decl => by
      rw [Member.erase_constructor, Member.spelled, Member.spelled, decl.spelled_erase]
  | .initializer _ body => by
      rw [Member.erase_initializer, Member.spelled, Member.spelled, Stmt.map_spelled_erase]
  | .nested _ decl => by
      rw [Member.erase_nested, Member.spelled, Member.spelled, Class.spelled_erase decl]

theorem Class.spelled_erase : (decl : Class) → decl.erase.spelled = decl.spelled
  | ⟨tags, isPublic, name, members⟩ => by
      rw [Class.erase_mk, Class.spelled, Class.spelled, Tag.map_erase_erase,
        Member.spelledAll_erase members]

theorem Member.spelledAll_erase : (members : List Member) →
    Member.spelledAll (members.map Member.erase) = Member.spelledAll members
  | [] => rfl
  | member :: rest => by
      rw [List.map_cons, Member.spelledAll, Member.spelledAll, Member.spelled_erase member,
        Member.spelledAll_erase rest]

end

namespace Declaration

theorem spelled_erase (declaration : Declaration) :
    declaration.erase.spelled = declaration.spelled := by
  cases declaration with
  | importPath span path => rfl
  | type span decl => exact congrArg (Declaration.type .origin) decl.spelled_erase
  | function span decl => exact congrArg (Declaration.function .origin) decl.spelled_erase

end Declaration

namespace Program

theorem spelled_erase (program : Program) : program.erase.spelled = program.spelled := by
  have each : Declaration.spelled ∘ Declaration.erase = Declaration.spelled :=
    funext Declaration.spelled_erase
  change mk ((program.declarations.map Declaration.erase).map Declaration.spelled) = _
  rw [List.map_map, each]
  rfl

end Program

end DataClass
