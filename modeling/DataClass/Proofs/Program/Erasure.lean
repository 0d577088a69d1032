import DataClass.Program.Basic
namespace DataClass

/-! Programs and their parts without places: every range is the same one. -/

namespace TypeRef

/-- The type without its places. -/
def erase : TypeRef → TypeRef := mapSpans fun _ => .origin

@[simp] theorem erase_named (span : Span) (path : List String) (arguments : List TypeRef) :
    (named span path arguments).erase = .named .origin path (arguments.map erase) := by
  rw [erase, mapSpans, mapSpansAll_eq_map]

@[simp] theorem erase_array (span : Span) (element : TypeRef) :
    (array span element).erase = .array .origin element.erase := rfl

@[simp] theorem erase_void (span : Span) : (void span).erase = .void .origin := rfl

end TypeRef

namespace Expr

def erase : Expr → Expr := mapSpans fun _ => .origin

@[simp] theorem erase_int (span : Span) (value : Int) :
    (int span value).erase = .int .origin value := rfl

@[simp] theorem erase_float (span : Span) (value : Binary64) :
    (float span value).erase = .float .origin value := rfl

@[simp] theorem erase_string (span : Span) (value : String) :
    (string span value).erase = .string .origin value := rfl

@[simp] theorem erase_bool (span : Span) (value : Bool) :
    (bool span value).erase = .bool .origin value := rfl

@[simp] theorem erase_null (span : Span) : (null span).erase = .null .origin := rfl

@[simp] theorem erase_ident (span : Span) (name : String) :
    (ident span name).erase = .ident .origin name := rfl

@[simp] theorem erase_this (span : Span) : (this span).erase = .this .origin := rfl

@[simp] theorem erase_call (span : Span) (callee : Expr) (arguments : List Expr) :
    (call span callee arguments).erase = .call .origin callee.erase (arguments.map erase) := by
  rw [erase, mapSpans, mapSpansAll_eq_map]

@[simp] theorem erase_methodCall (span : Span) (receiver : Expr) (name : String)
    (arguments : List Expr) :
    (methodCall span receiver name arguments).erase =
      .methodCall .origin receiver.erase name (arguments.map erase) := by
  rw [erase, mapSpans, mapSpansAll_eq_map]

@[simp] theorem erase_field (span : Span) (base : Expr) (name : String) :
    (field span base name).erase = .field .origin base.erase name := rfl

@[simp] theorem erase_unary (span : Span) (op : UnaryOp) (operand : Expr) :
    (unary span op operand).erase = .unary .origin op operand.erase := rfl

@[simp] theorem erase_binary (span : Span) (left : Expr) (op : BinaryOp) (right : Expr) :
    (binary span left op right).erase = .binary .origin left.erase op right.erase := rfl

@[simp] theorem erase_paren (span : Span) (inner : Expr) :
    (paren span inner).erase = .paren .origin inner.erase := rfl

@[simp] theorem erase_join (left : Expr) (op : BinaryOp) (right : Expr) :
    (left.join op right).erase = .binary .origin left.erase op right.erase := rfl

end Expr

namespace Stmt

def erase : Stmt → Stmt := mapSpans fun _ => .origin

@[simp] theorem erase_declare (span : Span) (name : String) (type : Option TypeRef)
    (value : Option Expr) :
    (declare span name type value).erase =
      .declare .origin name (type.map TypeRef.erase) (value.map Expr.erase) := rfl

@[simp] theorem erase_giveBack (span : Span) (value : Option Expr) :
    (giveBack span value).erase = .giveBack .origin (value.map Expr.erase) := rfl

@[simp] theorem erase_choose (span : Span) (condition : Expr) (thenBody : List Stmt)
    (elseBody : Option (List Stmt)) :
    (choose span condition thenBody elseBody).erase =
      .choose .origin condition.erase (thenBody.map erase) (elseBody.map (·.map erase)) := by
  cases elseBody <;> simp [erase, mapSpans, mapSpansAll_eq_map, Expr.erase]

@[simp] theorem erase_repeatWhile (span : Span) (condition : Expr) (body : List Stmt) :
    (repeatWhile span condition body).erase =
      .repeatWhile .origin condition.erase (body.map erase) := by
  simp [erase, mapSpans, mapSpansAll_eq_map, Expr.erase]

@[simp] theorem erase_assign (span : Span) (target value : Expr) :
    (assign span target value).erase = .assign .origin target.erase value.erase := rfl

@[simp] theorem erase_evaluate (span : Span) (expr : Expr) :
    (evaluate span expr).erase = .evaluate .origin expr.erase := rfl

end Stmt

namespace Tag

def erase : Tag → Tag := mapSpans fun _ => .origin

@[simp] theorem erase_mk (span : Span) (path : List String) :
    (Tag.mk span path).erase = ⟨.origin, path⟩ := rfl

end Tag

namespace Param

def erase : Param → Param := mapSpans fun _ => .origin

@[simp] theorem erase_mk (span : Span) (name : String) (type : TypeRef) :
    (Param.mk span name type).erase = ⟨.origin, name, type.erase⟩ := rfl

end Param

namespace Field

def erase : Field → Field := mapSpans fun _ => .origin

@[simp] theorem erase_mk (tags : List Tag) (isPublic : Bool) (name : String) (type : Option TypeRef)
    (default : Option Expr) :
    (Field.mk tags isPublic name type default).erase =
      ⟨tags.map Tag.erase, isPublic, name, type.map TypeRef.erase, default.map Expr.erase⟩ := rfl

end Field

namespace Method

def erase : Method → Method := mapSpans fun _ => .origin

@[simp] theorem erase_mk (tags : List Tag) (isPublic : Bool) (name : String) (params : List Param)
    (returnType : TypeRef) (body : List Stmt) :
    (Method.mk tags isPublic name params returnType body).erase =
      ⟨tags.map Tag.erase, isPublic, name, params.map Param.erase, returnType.erase,
        body.map Stmt.erase⟩ := rfl

end Method

namespace Constructor

def erase : Constructor → Constructor := mapSpans fun _ => .origin

@[simp] theorem erase_mk (tags : List Tag) (isPublic : Bool) (params : List Param)
    (body : List Stmt) :
    (Constructor.mk tags isPublic params body).erase =
      ⟨tags.map Tag.erase, isPublic, params.map Param.erase, body.map Stmt.erase⟩ := rfl

end Constructor

namespace Member

def erase : Member → Member := mapSpans fun _ => .origin

end Member

namespace Class

def erase : Class → Class := mapSpans fun _ => .origin

@[simp] theorem erase_mk (tags : List Tag) (isPublic : Bool) (name : String)
    (members : List Member) :
    (Class.mk tags isPublic name members).erase =
      ⟨tags.map Tag.erase, isPublic, name, members.map Member.erase⟩ := by
  rw [erase, mapSpans, Member.mapSpansAll_eq_map]
  rfl

end Class

namespace Member

@[simp] theorem erase_field (span : Span) (decl : Field) :
    (field span decl).erase = .field .origin decl.erase := rfl

@[simp] theorem erase_method (span : Span) (decl : Method) :
    (method span decl).erase = .method .origin decl.erase := rfl

@[simp] theorem erase_constructor (span : Span) (decl : Constructor) :
    (constructor span decl).erase = .constructor .origin decl.erase := rfl

@[simp] theorem erase_initializer (span : Span) (body : List Stmt) :
    (initializer span body).erase = .initializer .origin (body.map Stmt.erase) := rfl

@[simp] theorem erase_nested (span : Span) (decl : Class) :
    (nested span decl).erase = .nested .origin decl.erase := rfl

end Member

namespace Declaration

def erase : Declaration → Declaration := mapSpans fun _ => .origin

end Declaration

end DataClass
