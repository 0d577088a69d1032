import DataClass.Outline.Token
import DataClass.Program.Basic
namespace DataClass

/-! Outlines of programs. -/

namespace Outline

/-- A part of a program with its range. -/
def placed (span : Span) (node : Outline) : Outline :=
  .record "Spanned" [("node", node), ("span", span.outline)]

def path (segments : List String) : Outline := .list (segments.map Outline.string)

def visibility (isPublic : Bool) : Outline := .word (if isPublic then "Public" else "Private")

end Outline

mutual

def TypeRef.outline : TypeRef → Outline
  | .named span path arguments =>
      .placed span
        (.record "Named" [("path", .path path), ("args", .list (TypeRef.outlines arguments))])
  | .array span element => .placed span (.variant "Array" [element.outline])
  | .void span => .placed span (.word "Void")

def TypeRef.outlines : List TypeRef → List Outline
  | [] => []
  | type :: rest => type.outline :: TypeRef.outlines rest

end

def UnaryOp.name : UnaryOp → String
  | .negate => "Neg"
  | .not => "Not"

def BinaryOp.name : BinaryOp → String
  | .add => "Add"
  | .sub => "Sub"
  | .mul => "Mul"
  | .div => "Div"
  | .mod => "Mod"
  | .eq => "Eq"
  | .notEq => "NotEq"
  | .lt => "Lt"
  | .ltEq => "LtEq"
  | .gt => "Gt"
  | .gtEq => "GtEq"
  | .and => "And"
  | .or => "Or"

def Outline.literal (value : Outline) : Outline := .variant "Literal" [value]

mutual

def Expr.outline : Expr → Outline
  | .int span value => .placed span (.literal (.variant "Int" [.int value]))
  | .float span value => .placed span (.literal (.variant "Float" [.float value]))
  | .string span value => .placed span (.literal (.variant "String" [.string value]))
  | .bool span value =>
      .placed span (.literal (.variant "Bool" [.word (if value then "true" else "false")]))
  | .null span => .placed span (.literal (.word "Null"))
  | .ident span name => .placed span (.variant "Ident" [.string name])
  | .this span => .placed span (.word "This")
  | .field span base name => .placed span (.variant "Field" [base.outline, .string name])
  | .call span callee arguments =>
      .placed span (.variant "Call" [callee.outline, .list (Expr.outlines arguments)])
  | .methodCall span receiver name arguments =>
      .placed span
        (.variant "MethodCall" [receiver.outline, .string name, .list (Expr.outlines arguments)])
  | .unary span op operand => .placed span (.variant "Unary" [.word op.name, operand.outline])
  | .binary span left op right =>
      .placed span (.variant "Binary" [left.outline, .word op.name, right.outline])
  | .paren span inner => .placed span (.variant "Paren" [inner.outline])

def Expr.outlines : List Expr → List Outline
  | [] => []
  | expr :: rest => expr.outline :: Expr.outlines rest

end

mutual

def Stmt.outline : Stmt → Outline
  | .declare span name type value =>
      .placed span (.variant "Let" [.record "LetStmt" [("name", .string name),
        ("ty", .optional (type.map TypeRef.outline)),
        ("value", .optional (value.map Expr.outline))]])
  | .assign span target value =>
      .placed span (.variant "Assign" [.record "AssignStmt" [("target", target.outline),
        ("value", value.outline)]])
  | .giveBack span value =>
      .placed span (.variant "Return" [.optional (value.map Expr.outline)])
  | .choose span condition thenBody none =>
      .placed span (.variant "If" [.record "IfStmt" [("condition", condition.outline),
        ("then_body", .list (Stmt.outlines thenBody)), ("else_body", .optional none)]])
  | .choose span condition thenBody (some elseBody) =>
      .placed span (.variant "If" [.record "IfStmt" [("condition", condition.outline),
        ("then_body", .list (Stmt.outlines thenBody)),
        ("else_body", .optional (some (.list (Stmt.outlines elseBody))))]])
  | .repeatWhile span condition body =>
      .placed span (.variant "While" [.record "WhileStmt" [("condition", condition.outline),
        ("body", .list (Stmt.outlines body))]])
  | .evaluate span expr => .placed span (.variant "Expr" [expr.outline])

def Stmt.outlines : List Stmt → List Outline
  | [] => []
  | stmt :: rest => stmt.outline :: Stmt.outlines rest

end

def Tag.outline (tag : Tag) : Outline :=
  .placed tag.span (.record "Annotation" [("path", .path tag.path)])

def Outline.tags (tags : List Tag) : Outline := .list (tags.map Tag.outline)

def Param.outline (param : Param) : Outline :=
  .placed param.span (.record "Param" [("name", .string param.name), ("ty", param.type.outline)])

def Outline.params (params : List Param) : Outline := .list (params.map Param.outline)

def Field.outline (field : Field) : Outline :=
  .record "FieldDecl" [("annotations", .tags field.tags),
    ("visibility", .visibility field.isPublic), ("name", .string field.name),
    ("ty", .optional (field.type.map TypeRef.outline)),
    ("default", .optional (field.default.map Expr.outline))]

def Method.outline (method : Method) : Outline :=
  .record "MethodDecl" [("annotations", .tags method.tags),
    ("visibility", .visibility method.isPublic), ("name", .string method.name),
    ("params", .params method.params), ("return_type", method.returnType.outline),
    ("body", .list (Stmt.outlines method.body))]

def Constructor.outline (constructor : Constructor) : Outline :=
  .record "ConstructorDecl" [("annotations", .tags constructor.tags),
    ("visibility", .visibility constructor.isPublic), ("params", .params constructor.params),
    ("body", .list (Stmt.outlines constructor.body))]

mutual

def Member.outline : Member → Outline
  | .field span decl => .placed span (.variant "Field" [decl.outline])
  | .method span decl => .placed span (.variant "Method" [decl.outline])
  | .constructor span decl => .placed span (.variant "Constructor" [decl.outline])
  | .initializer span body =>
      .placed span (.variant "Initializer" [.list (Stmt.outlines body)])
  | .nested span decl => .placed span (.variant "Type" [decl.outline])

def Class.outline : Class → Outline
  | ⟨tags, isPublic, name, members⟩ =>
      .record "TypeDecl" [("annotations", .tags tags), ("visibility", .visibility isPublic),
        ("name", .string name), ("members", .list (Member.outlines members))]

def Member.outlines : List Member → List Outline
  | [] => []
  | member :: rest => member.outline :: Member.outlines rest

end

def Declaration.outline : Declaration → Outline
  | .importPath span path =>
      .placed span (.variant "Import" [.record "ImportDecl" [("path", .path path)]])
  | .type span decl => .placed span (.variant "Type" [decl.outline])
  | .function span decl => .placed span (.variant "Function" [decl.outline])

def Program.outline (program : Program) : Outline :=
  .record "CompilationUnit"
    [("declarations", .list (program.declarations.map Declaration.outline))]

end DataClass
