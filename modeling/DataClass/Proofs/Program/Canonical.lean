import DataClass.Proofs.Program.Erasure
import DataClass.Vocabulary.BuiltinType
namespace DataClass

/-! What is left of a program without its places and tags, and with every builtin type under the
spelling by which it is listed. -/

namespace BuiltinType

/-- A spelling stands for one builtin type at most, so the first one that has it is the only one. -/
theorem ofSpelling?_eq_some_iff {name : String} {type : BuiltinType} :
    ofSpelling? name = some type ↔ name ∈ type.canonical :: type.aliases := by
  constructor
  · intro found
    have spelled := List.find?_some found
    simp only [Bool.or_eq_true, beq_iff_eq, List.contains_iff_mem] at spelled
    exact List.mem_cons.mpr (spelled.imp_left Eq.symm)
  · have each : ∀ name ∈ type.canonical :: type.aliases, ofSpelling? name = some type := by
      cases type <;> decide
    exact each name

/-- The listed spelling of the type that a name stands for. Other names stay as they are. -/
def canonicalName (name : String) : String :=
  match ofSpelling? name with
  | some type => type.canonical
  | none => name

theorem ofSpelling?_canonical (type : BuiltinType) : ofSpelling? type.canonical = some type :=
  ofSpelling?_eq_some_iff.mpr List.mem_cons_self

theorem ofSpelling?_canonicalName (name : String) :
    ofSpelling? (canonicalName name) = ofSpelling? name := by
  unfold canonicalName
  cases found : ofSpelling? name with
  | none => exact found
  | some type => exact ofSpelling?_canonical type

/-- Only a path of one segment stands for a builtin type. -/
def canonicalPath : List String → List String
  | [name] => [canonicalName name]
  | path => path

end BuiltinType

namespace TypeRef

mutual

def canonical : TypeRef → TypeRef
  | .named _ path arguments => .named .origin (BuiltinType.canonicalPath path) (canonicalAll arguments)
  | .array _ element => .array .origin element.canonical
  | .void _ => .void .origin

def canonicalAll : List TypeRef → List TypeRef
  | [] => []
  | type :: rest => type.canonical :: canonicalAll rest

end

mutual

theorem canonical_erase : (type : TypeRef) → type.erase.canonical = type.canonical
  | .named _ path arguments => by
      rw [erase_named, canonical, canonical, canonicalAll_erase arguments]
  | .array _ element => by
      rw [erase_array, canonical, canonical, canonical_erase element]
  | .void _ => rfl

theorem canonicalAll_erase : (types : List TypeRef) →
    canonicalAll (types.map erase) = canonicalAll types
  | [] => rfl
  | type :: rest => by
      rw [List.map_cons, canonicalAll, canonicalAll, canonical_erase type, canonicalAll_erase rest]

end

theorem map_canonical_erase (type : Option TypeRef) :
    (type.map erase).map canonical = type.map canonical := by
  cases type with
  | none => rfl
  | some type => exact congrArg some (canonical_erase type)

theorem isVoid_canonical (type : TypeRef) : type.canonical.isVoid = type.isVoid := by
  cases type <;> rfl

end TypeRef

namespace Expr

mutual

theorem erase_erase : (expr : Expr) → expr.erase.erase = expr.erase
  | .int _ _ | .float _ _ | .string _ _ | .bool _ _ | .null _ | .ident _ _ | .this _ => rfl
  | .field _ base _ => by simp only [erase_field, erase_erase base]
  | .call _ callee arguments => by
      simp only [erase_call, erase_erase callee, map_erase_erase arguments]
  | .methodCall _ receiver _ arguments => by
      simp only [erase_methodCall, erase_erase receiver, map_erase_erase arguments]
  | .unary _ _ operand => by simp only [erase_unary, erase_erase operand]
  | .binary _ left _ right => by simp only [erase_binary, erase_erase left, erase_erase right]
  | .paren _ inner => by simp only [erase_paren, erase_erase inner]

theorem map_erase_erase : (exprs : List Expr) → (exprs.map erase).map erase = exprs.map erase
  | [] => rfl
  | expr :: rest => by
      rw [List.map_cons, List.map_cons, erase_erase expr, map_erase_erase rest]

end

theorem optionMap_erase_erase (value : Option Expr) :
    (value.map erase).map erase = value.map erase := by
  cases value with
  | none => rfl
  | some value => exact congrArg some (erase_erase value)

end Expr

namespace Stmt

mutual

def canonical : Stmt → Stmt
  | .declare _ name type value =>
      .declare .origin name (type.map TypeRef.canonical) (value.map Expr.erase)
  | .assign _ target value => .assign .origin target.erase value.erase
  | .giveBack _ value => .giveBack .origin (value.map Expr.erase)
  | .choose _ condition thenBody none =>
      .choose .origin condition.erase (canonicalAll thenBody) none
  | .choose _ condition thenBody (some elseBody) =>
      .choose .origin condition.erase (canonicalAll thenBody) (some (canonicalAll elseBody))
  | .repeatWhile _ condition body => .repeatWhile .origin condition.erase (canonicalAll body)
  | .evaluate _ expr => .evaluate .origin expr.erase

def canonicalAll : List Stmt → List Stmt
  | [] => []
  | stmt :: rest => stmt.canonical :: canonicalAll rest

end

mutual

theorem canonical_erase : (stmt : Stmt) → stmt.erase.canonical = stmt.canonical
  | .declare _ _ type value => by
      simp only [erase_declare, canonical, TypeRef.map_canonical_erase, Expr.optionMap_erase_erase]
  | .assign _ target value => by
      simp only [erase_assign, canonical, Expr.erase_erase]
  | .giveBack _ value => by
      simp only [erase_giveBack, canonical, Expr.optionMap_erase_erase]
  | .choose _ condition thenBody none => by
      simp only [erase_choose, Option.map_none, canonical, Expr.erase_erase,
        canonicalAll_erase thenBody]
  | .choose _ condition thenBody (some elseBody) => by
      simp only [erase_choose, Option.map_some, canonical, Expr.erase_erase,
        canonicalAll_erase thenBody, canonicalAll_erase elseBody]
  | .repeatWhile _ condition body => by
      simp only [erase_repeatWhile, canonical, Expr.erase_erase, canonicalAll_erase body]
  | .evaluate _ expr => by
      simp only [erase_evaluate, canonical, Expr.erase_erase]

theorem canonicalAll_erase : (stmts : List Stmt) →
    canonicalAll (stmts.map erase) = canonicalAll stmts
  | [] => rfl
  | stmt :: rest => by
      rw [List.map_cons, canonicalAll, canonicalAll, canonical_erase stmt, canonicalAll_erase rest]

end

theorem canonicalAll_eq_map (stmts : List Stmt) : canonicalAll stmts = stmts.map canonical := by
  induction stmts with
  | nil => rfl
  | cons stmt rest ih => rw [canonicalAll, ih, List.map_cons]

end Stmt

namespace Param

def canonical (param : Param) : Param := ⟨.origin, param.name, param.type.canonical⟩

end Param

namespace Field

def canonical (field : Field) : Field :=
  ⟨[], field.isPublic, field.name, field.type.map TypeRef.canonical, field.default.map Expr.erase⟩

end Field

namespace Method

def canonical (method : Method) : Method :=
  ⟨[], method.isPublic, method.name, method.params.map Param.canonical, method.returnType.canonical,
    Stmt.canonicalAll method.body⟩

theorem canonical_erase (method : Method) : method.erase.canonical = method.canonical := by
  obtain ⟨annotations, isPublic, name, params, returnType, body⟩ := method
  have parameter (param : Param) : param.erase.canonical = param.canonical := by
    obtain ⟨span, name, type⟩ := param
    simp only [Param.erase_mk, Param.canonical, TypeRef.canonical_erase]
  simp only [erase_mk, canonical, List.map_map, Function.comp_def, parameter,
    TypeRef.canonical_erase, Stmt.canonicalAll_erase]

end Method

namespace Constructor

def canonical (constructor : Constructor) : Constructor :=
  ⟨[], constructor.isPublic, constructor.params.map Param.canonical,
    Stmt.canonicalAll constructor.body⟩

end Constructor

mutual

def Member.canonical : Member → Member
  | .field _ decl => .field .origin decl.canonical
  | .method _ decl => .method .origin decl.canonical
  | .constructor _ decl => .constructor .origin decl.canonical
  | .initializer _ body => .initializer .origin (Stmt.canonicalAll body)
  | .nested _ decl => .nested .origin decl.canonical

def Class.canonical : Class → Class
  | ⟨_, isPublic, name, members⟩ => ⟨[], isPublic, name, Member.canonicalAll members⟩

def Member.canonicalAll : List Member → List Member
  | [] => []
  | member :: rest => member.canonical :: Member.canonicalAll rest

end

namespace FieldMember

def canonical (entry : FieldMember) : FieldMember :=
  ⟨entry.index, entry.field.canonical, .origin⟩

end FieldMember

namespace Class

theorem members_canonical (decl : Class) :
    decl.canonical.members = decl.members.map Member.canonical := by
  have each (members : List Member) :
      Member.canonicalAll members = members.map Member.canonical := by
    induction members with
    | nil => rfl
    | cons member rest ih => rw [Member.canonicalAll, ih, List.map_cons]
  cases decl
  exact each _

@[simp] theorem name_canonical (decl : Class) : decl.canonical.name = decl.name := by
  cases decl
  rfl

@[simp] theorem isPublic_canonical (decl : Class) : decl.canonical.isPublic = decl.isPublic := by
  cases decl
  rfl

theorem fields_canonical (decl : Class) :
    decl.canonical.fields = decl.fields.map FieldMember.canonical := by
  have inside (index : Nat) (members : List Member) :
      fieldsFrom index (members.map Member.canonical) =
        (fieldsFrom index members).map FieldMember.canonical := by
    induction members generalizing index with
    | nil => rfl
    | cons member rest ih =>
        cases member <;> simp [fieldsFrom, Member.canonical, FieldMember.canonical, ih]
  rw [fields, members_canonical, inside]
  rfl

theorem methods_canonical (decl : Class) :
    decl.canonical.methods = decl.methods.map Method.canonical := by
  have each : Member.method? ∘ Member.canonical = fun member => member.method?.map Method.canonical :=
    funext fun member => by cases member <;> simp [Member.canonical, Member.method?]
  rw [methods, methods, members_canonical, List.filterMap_map, each, List.map_filterMap]

theorem constructors_canonical (decl : Class) :
    decl.canonical.members.filterMap Member.constructor? =
      (decl.members.filterMap Member.constructor?).map Constructor.canonical := by
  have each : Member.constructor? ∘ Member.canonical =
      fun member => member.constructor?.map Constructor.canonical :=
    funext fun member => by cases member <;> simp [Member.canonical, Member.constructor?]
  rw [members_canonical, List.filterMap_map, each, List.map_filterMap]

theorem initializers_canonical (decl : Class) :
    decl.canonical.members.filterMap Member.initializer? =
      (decl.members.filterMap Member.initializer?).map Stmt.canonicalAll := by
  have each : Member.initializer? ∘ Member.canonical =
      fun member => member.initializer?.map Stmt.canonicalAll :=
    funext fun member => by cases member <;> simp [Member.canonical, Member.initializer?]
  rw [members_canonical, List.filterMap_map, each, List.map_filterMap]

end Class

namespace Declaration

def canonical : Declaration → Declaration
  | .importPath _ path => .importPath .origin path
  | .type _ decl => .type .origin decl.canonical
  | .function _ decl => .function .origin decl.canonical

end Declaration

namespace Program

def canonical (program : Program) : Program := ⟨program.declarations.map Declaration.canonical⟩

theorem classes_canonical (program : Program) :
    program.canonical.classes = program.classes.map Class.canonical := by
  have each : Declaration.class? ∘ Declaration.canonical =
      fun declaration => declaration.class?.map Class.canonical :=
    funext fun declaration => by cases declaration <;> rfl
  rw [classes, classes, canonical, List.filterMap_map, each, List.map_filterMap]

end Program

end DataClass
