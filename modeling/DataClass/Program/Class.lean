import DataClass.Program.Stmt
namespace DataClass

/-! Classes and their members. -/

/-- A mark such as `@app.Data` in front of a declaration. -/
structure Tag where
  span : Span
  path : List String
deriving DecidableEq

namespace Tag

/-- The last segment of the path. -/
def name (tag : Tag) : String := tag.path.getLast?.getD ""

def dotted (tag : Tag) : String := ".".intercalate tag.path

def mapSpans (move : Span → Span) (tag : Tag) : Tag :=
  { tag with span := move tag.span }

def agrees (near : Span → Span → Bool) (left right : Tag) : Bool :=
  near left.span right.span && left.path == right.path

end Tag

structure Param where
  span : Span
  name : String
  type : TypeRef

namespace Param

def mapSpans (move : Span → Span) (param : Param) : Param :=
  { param with span := move param.span, type := param.type.mapSpans move }

def agrees (near : Span → Span → Bool) (left right : Param) : Bool :=
  near left.span right.span && left.name == right.name && left.type.agrees near right.type

end Param

structure Field where
  tags : List Tag
  isPublic : Bool
  name : String
  type : Option TypeRef
  default : Option Expr

namespace Field

def mapSpans (move : Span → Span) (field : Field) : Field :=
  { field with
    tags := field.tags.map (·.mapSpans move)
    type := field.type.map (·.mapSpans move)
    default := field.default.map (·.mapSpans move) }

def agrees (near : Span → Span → Bool) (left right : Field) : Bool :=
  agreesList (Tag.agrees near) left.tags right.tags &&
    left.isPublic == right.isPublic && left.name == right.name &&
    agreesOption (TypeRef.agrees near) left.type right.type &&
    agreesOption (Expr.agrees near) left.default right.default

end Field

/-- A method of a class, or a function outside of all classes. -/
structure Method where
  tags : List Tag
  isPublic : Bool
  name : String
  params : List Param
  returnType : TypeRef
  body : List Stmt

namespace Method

def mapSpans (move : Span → Span) (method : Method) : Method :=
  { method with
    tags := method.tags.map (·.mapSpans move)
    params := method.params.map (·.mapSpans move)
    returnType := method.returnType.mapSpans move
    body := method.body.map (·.mapSpans move) }

def agrees (near : Span → Span → Bool) (left right : Method) : Bool :=
  agreesList (Tag.agrees near) left.tags right.tags &&
    left.isPublic == right.isPublic && left.name == right.name &&
    agreesList (Param.agrees near) left.params right.params &&
    left.returnType.agrees near right.returnType &&
    Stmt.agreesAll near left.body right.body

/-- Whether two methods are the same wherever they stand. -/
def alike (left right : Method) : Bool := left.agrees (fun _ _ => true) right

end Method

structure Constructor where
  tags : List Tag
  isPublic : Bool
  params : List Param
  body : List Stmt

namespace Constructor

def mapSpans (move : Span → Span) (constructor : Constructor) : Constructor :=
  { constructor with
    tags := constructor.tags.map (·.mapSpans move)
    params := constructor.params.map (·.mapSpans move)
    body := constructor.body.map (·.mapSpans move) }

def agrees (near : Span → Span → Bool) (left right : Constructor) : Bool :=
  agreesList (Tag.agrees near) left.tags right.tags &&
    left.isPublic == right.isPublic && agreesList (Param.agrees near) left.params right.params &&
    Stmt.agreesAll near left.body right.body

end Constructor

mutual

inductive Member where
  | field (span : Span) (decl : Field)
  | method (span : Span) (decl : Method)
  | constructor (span : Span) (decl : Constructor)
  | initializer (span : Span) (body : List Stmt)
  | nested (span : Span) (decl : Class)

structure Class where
  tags : List Tag
  isPublic : Bool
  name : String
  members : List Member

end

namespace Member

def span : Member → Span
  | .field span _ | .method span _ | .constructor span _ | .initializer span _
  | .nested span _ => span

def kindName : Member → String
  | .field _ _ => "field"
  | .method _ _ => "method"
  | .constructor _ _ => "constructor"
  | .initializer _ _ => "initializer"
  | .nested _ _ => "nested type"

def tags : Member → List Tag
  | .field _ decl => decl.tags
  | .method _ decl => decl.tags
  | .constructor _ decl => decl.tags
  | .initializer _ _ => []
  | .nested _ decl => decl.tags

def name? : Member → Option String
  | .field _ decl => some decl.name
  | .method _ decl => some decl.name
  | .constructor _ _ | .initializer _ _ => none
  | .nested _ decl => some decl.name

def isField : Member → Bool
  | .field _ _ => true
  | _ => false

def method? : Member → Option Method
  | .method _ decl => some decl
  | _ => none

def constructor? : Member → Option Constructor
  | .constructor _ decl => some decl
  | _ => none

def initializer? : Member → Option (List Stmt)
  | .initializer _ body => some body
  | _ => none

def nested? : Member → Option Class
  | .nested _ decl => some decl
  | _ => none

end Member

/-- A field with its place in the member list and the range of the whole member. -/
structure FieldMember where
  index : Nat
  field : Field
  span : Span

namespace Class

/-- The fields among members, counted from `index`. -/
def fieldsFrom (index : Nat) : List Member → List FieldMember
  | [] => []
  | .field span field :: rest => ⟨index, field, span⟩ :: fieldsFrom (index + 1) rest
  | _ :: rest => fieldsFrom (index + 1) rest

/-- The direct fields in source order. -/
def fields (decl : Class) : List FieldMember := fieldsFrom 0 decl.members

/-- The direct methods in source order. -/
def methods (decl : Class) : List Method := decl.members.filterMap Member.method?

/-- The first direct method with a name. -/
def findMethod (decl : Class) (name : String) : Option Method :=
  decl.methods.find? (·.name == name)

/-- The direct nested classes in source order. -/
def nestedClasses (decl : Class) : List Class := decl.members.filterMap Member.nested?

end Class

mutual

/-- Change every range. -/
def Member.mapSpans (move : Span → Span) : Member → Member
  | .field span decl => .field (move span) (decl.mapSpans move)
  | .method span decl => .method (move span) (decl.mapSpans move)
  | .constructor span decl => .constructor (move span) (decl.mapSpans move)
  | .initializer span body => .initializer (move span) (body.map (·.mapSpans move))
  | .nested span decl => .nested (move span) (decl.mapSpans move)

/-- Change every range. -/
def Class.mapSpans (move : Span → Span) : Class → Class
  | ⟨tags, isPublic, name, members⟩ =>
      ⟨tags.map (·.mapSpans move), isPublic, name, Member.mapSpansAll move members⟩

def Member.mapSpansAll (move : Span → Span) : List Member → List Member
  | [] => []
  | member :: rest => member.mapSpans move :: Member.mapSpansAll move rest

end

theorem Member.mapSpansAll_eq_map (move : Span → Span) (members : List Member) :
    Member.mapSpansAll move members = members.map (Member.mapSpans move) := by
  induction members with
  | nil => rfl
  | cons member rest ih => simp [Member.mapSpansAll, ih]

mutual

/-- Compare two members, their ranges by `near`. -/
def Member.agrees (near : Span → Span → Bool) : Member → Member → Bool
  | .field left decl, .field right decl' => near left right && decl.agrees near decl'
  | .method left decl, .method right decl' => near left right && decl.agrees near decl'
  | .constructor left decl, .constructor right decl' => near left right && decl.agrees near decl'
  | .initializer left body, .initializer right body' =>
      near left right && Stmt.agreesAll near body body'
  | .nested left decl, .nested right decl' => near left right && decl.agrees near decl'
  | _, _ => false

/-- Compare two classes, their ranges by `near`. -/
def Class.agrees (near : Span → Span → Bool) : Class → Class → Bool
  | ⟨tags, isPublic, name, members⟩, ⟨tags', isPublic', name', members'⟩ =>
      agreesList (Tag.agrees near) tags tags' && isPublic == isPublic' &&
        name == name' && Member.agreesAll near members members'

def Member.agreesAll (near : Span → Span → Bool) : List Member → List Member → Bool
  | [], [] => true
  | left :: lefts, right :: rights => left.agrees near right && Member.agreesAll near lefts rights
  | _, _ => false

end

end DataClass
