import DataClass.Program.Basic
namespace DataClass

/-! Where the parts of a program stand. What is left of a part when only its places are looked at is a
tree of ranges: its own, and those of the parts directly inside of it, in the order of the source. -/

inductive Extent where
  | node (span : Span) (inside : List Extent)

namespace Extent

def span : Extent → Span
  | .node span _ => span

/-- The parts directly inside. -/
def inside : Extent → List Extent
  | .node _ inside => inside

mutual

/-- A part and all the parts inside of it. -/
def nodes : Extent → List Extent
  | .node span inside => .node span inside :: nodesAll inside

def nodesAll : List Extent → List Extent
  | [] => []
  | first :: rest => first.nodes ++ nodesAll rest

end

end Extent

namespace TypeRef

mutual

def extent : TypeRef → Extent
  | .named span _ arguments => .node span (extentAll arguments)
  | .array span element => .node span [element.extent]
  | .void span => .node span []

def extentAll : List TypeRef → List Extent
  | [] => []
  | type :: rest => type.extent :: extentAll rest

end

theorem extentAll_eq_map (types : List TypeRef) : extentAll types = types.map extent := by
  induction types with
  | nil => rfl
  | cons type rest ih => rw [extentAll, ih, List.map_cons]

end TypeRef

namespace Expr

mutual

def extent : Expr → Extent
  | .int span _ | .float span _ | .string span _ | .bool span _ | .null span | .ident span _
  | .this span => .node span []
  | .field span base _ => .node span [base.extent]
  | .call span callee arguments => .node span (callee.extent :: extentAll arguments)
  | .methodCall span receiver _ arguments => .node span (receiver.extent :: extentAll arguments)
  | .unary span _ operand => .node span [operand.extent]
  | .binary span left _ right => .node span [left.extent, right.extent]
  | .paren span inner => .node span [inner.extent]

def extentAll : List Expr → List Extent
  | [] => []
  | expr :: rest => expr.extent :: extentAll rest

end

theorem extentAll_eq_map (exprs : List Expr) : extentAll exprs = exprs.map extent := by
  induction exprs with
  | nil => rfl
  | cons expr rest ih => rw [extentAll, ih, List.map_cons]

end Expr

namespace Stmt

mutual

def extent : Stmt → Extent
  | .declare span _ type value =>
      .node span ((type.map TypeRef.extent).toList ++ (value.map Expr.extent).toList)
  | .assign span target value => .node span [target.extent, value.extent]
  | .giveBack span value => .node span (value.map Expr.extent).toList
  | .choose span condition thenBody none => .node span (condition.extent :: extentAll thenBody)
  | .choose span condition thenBody (some elseBody) =>
      .node span (condition.extent :: (extentAll thenBody ++ extentAll elseBody))
  | .repeatWhile span condition body => .node span (condition.extent :: extentAll body)
  | .evaluate span expr => .node span [expr.extent]

def extentAll : List Stmt → List Extent
  | [] => []
  | stmt :: rest => stmt.extent :: extentAll rest

end

theorem extentAll_eq_map (stmts : List Stmt) : extentAll stmts = stmts.map extent := by
  induction stmts with
  | nil => rfl
  | cons stmt rest ih => rw [extentAll, ih, List.map_cons]

end Stmt

def Tag.extent (tag : Tag) : Extent := .node tag.span []

def Param.extent (param : Param) : Extent := .node param.span [param.type.extent]

/-- The parts of a field; the range is that of the member. -/
def Field.extents (field : Field) : List Extent :=
  field.tags.map Tag.extent ++
    ((field.type.map TypeRef.extent).toList ++ (field.default.map Expr.extent).toList)

/-- The parts of a method, the return type among them also where it is not written. -/
def Method.extents (method : Method) : List Extent :=
  method.tags.map Tag.extent ++
    (method.params.map Param.extent ++ method.returnType.extent :: method.body.map Stmt.extent)

def Constructor.extents (constructor : Constructor) : List Extent :=
  constructor.tags.map Tag.extent ++
    (constructor.params.map Param.extent ++ constructor.body.map Stmt.extent)

mutual

def Member.extent : Member → Extent
  | .field span decl => .node span decl.extents
  | .method span decl => .node span decl.extents
  | .constructor span decl => .node span decl.extents
  | .initializer span body => .node span (body.map Stmt.extent)
  | .nested span decl => .node span decl.extents

def Class.extents : Class → List Extent
  | ⟨tags, _, _, members⟩ => tags.map Tag.extent ++ Member.extentAll members

def Member.extentAll : List Member → List Extent
  | [] => []
  | member :: rest => member.extent :: Member.extentAll rest

end

theorem Member.extentAll_eq_map (members : List Member) :
    Member.extentAll members = members.map Member.extent := by
  induction members with
  | nil => rfl
  | cons member rest ih => rw [extentAll, ih, List.map_cons]

def Declaration.extent : Declaration → Extent
  | .importPath span _ => .node span []
  | .type span decl => .node span decl.extents
  | .function span decl => .node span decl.extents

/-- All parts of a program that have a range. -/
def Program.nodes (program : Program) : List Extent :=
  Extent.nodesAll (program.declarations.map Declaration.extent)

/-! No range of a program is left out of its extents: a change of ranges that leaves those alone leaves
the program alone. -/

namespace Extent

/-- None of the ranges of these parts, however deep inside, is changed. -/
def Fixed (move : Span → Span) (extents : List Extent) : Prop :=
  ∀ part ∈ nodesAll extents, move part.span = part.span

variable {move : Span → Span} {span : Span} {extent : Extent} {inside rest one two : List Extent}
  {Part : Type} {extentOf : Part → Extent} {change : Part → Part}

theorem nodesAll_append (one two : List Extent) : nodesAll (one ++ two) = nodesAll one ++ nodesAll two := by
  induction one with
  | nil => rfl
  | cons first rest ih => rw [List.cons_append, nodesAll, nodesAll, ih, List.append_assoc]

theorem fixed_append : Fixed move (one ++ two) ↔ Fixed move one ∧ Fixed move two := by
  simp only [Fixed, nodesAll_append, List.forall_mem_append]

theorem fixed_cons : Fixed move (extent :: rest) ↔ Fixed move [extent] ∧ Fixed move rest :=
  @fixed_append move [extent] rest

theorem fixed_node : Fixed move [.node span inside] ↔ move span = span ∧ Fixed move inside := by
  simp only [Fixed, nodesAll, nodes, List.append_nil, List.forall_mem_cons]
  rfl

theorem map_of_fixed (same : ∀ part, Fixed move [extentOf part] → change part = part) {parts : List Part}
    (fixed : Fixed move (parts.map extentOf)) : parts.map change = parts := by
  induction parts with
  | nil => rfl
  | cons part parts ih =>
      obtain ⟨here, later⟩ := fixed_cons.mp fixed
      rw [List.map_cons, same part here, ih later]

theorem map_option_of_fixed (same : ∀ part, Fixed move [extentOf part] → change part = part)
    {part : Option Part} (fixed : Fixed move (part.map extentOf).toList) : part.map change = part := by
  cases part with
  | none => rfl
  | some part => exact congrArg some (same part fixed)

end Extent

open Extent (Fixed fixed_append fixed_cons fixed_node map_of_fixed map_option_of_fixed)

variable {move : Span → Span}

namespace TypeRef

mutual

theorem mapSpans_of_fixed : (type : TypeRef) → Fixed move [type.extent] → type.mapSpans move = type
  | .named span path arguments, fixed => by
      obtain ⟨here, inside⟩ := fixed_node.mp fixed
      rw [mapSpans, here, mapSpansAll_of_fixed arguments inside]
  | .array span element, fixed => by
      obtain ⟨here, inside⟩ := fixed_node.mp fixed
      rw [mapSpans, here, mapSpans_of_fixed element inside]
  | .void span, fixed => by rw [mapSpans, (fixed_node.mp fixed).1]

theorem mapSpansAll_of_fixed : (types : List TypeRef) → Fixed move (extentAll types) →
    mapSpansAll move types = types
  | [], _ => rfl
  | type :: rest, fixed => by
      obtain ⟨here, later⟩ := fixed_cons.mp fixed
      rw [mapSpansAll, mapSpans_of_fixed type here, mapSpansAll_of_fixed rest later]

end

end TypeRef

namespace Expr

mutual

theorem mapSpans_of_fixed : (expr : Expr) → Fixed move [expr.extent] → expr.mapSpans move = expr
  | .field span base name, fixed => by
      obtain ⟨here, inside⟩ := fixed_node.mp fixed
      rw [mapSpans, here, mapSpans_of_fixed base inside]
  | .call span callee arguments, fixed => by
      obtain ⟨here, inside⟩ := fixed_node.mp fixed
      obtain ⟨before, given⟩ := fixed_cons.mp inside
      rw [mapSpans, here, mapSpans_of_fixed callee before, mapSpansAll_of_fixed arguments given]
  | .methodCall span receiver name arguments, fixed => by
      obtain ⟨here, inside⟩ := fixed_node.mp fixed
      obtain ⟨before, given⟩ := fixed_cons.mp inside
      rw [mapSpans, here, mapSpans_of_fixed receiver before, mapSpansAll_of_fixed arguments given]
  | .unary span op operand, fixed => by
      obtain ⟨here, inside⟩ := fixed_node.mp fixed
      rw [mapSpans, here, mapSpans_of_fixed operand inside]
  | .binary span left op right, fixed => by
      obtain ⟨here, inside⟩ := fixed_node.mp fixed
      obtain ⟨before, behind⟩ := fixed_cons.mp inside
      rw [mapSpans, here, mapSpans_of_fixed left before, mapSpans_of_fixed right behind]
  | .paren span inner, fixed => by
      obtain ⟨here, inside⟩ := fixed_node.mp fixed
      rw [mapSpans, here, mapSpans_of_fixed inner inside]
  | .int _ _, fixed | .float _ _, fixed | .string _ _, fixed | .bool _ _, fixed | .null _, fixed
  | .ident _ _, fixed | .this _, fixed => by rw [mapSpans, (fixed_node.mp fixed).1]

theorem mapSpansAll_of_fixed : (exprs : List Expr) → Fixed move (extentAll exprs) →
    mapSpansAll move exprs = exprs
  | [], _ => rfl
  | expr :: rest, fixed => by
      obtain ⟨here, later⟩ := fixed_cons.mp fixed
      rw [mapSpansAll, mapSpans_of_fixed expr here, mapSpansAll_of_fixed rest later]

end

end Expr

namespace Stmt

mutual

theorem mapSpans_of_fixed : (stmt : Stmt) → Fixed move [stmt.extent] → stmt.mapSpans move = stmt
  | .declare span name type value, fixed => by
      obtain ⟨here, inside⟩ := fixed_node.mp fixed
      obtain ⟨typed, valued⟩ := fixed_append.mp inside
      rw [mapSpans, here, map_option_of_fixed TypeRef.mapSpans_of_fixed typed,
        map_option_of_fixed Expr.mapSpans_of_fixed valued]
  | .assign span target value, fixed => by
      obtain ⟨here, inside⟩ := fixed_node.mp fixed
      obtain ⟨assigned, valued⟩ := fixed_cons.mp inside
      rw [mapSpans, here, target.mapSpans_of_fixed assigned, value.mapSpans_of_fixed valued]
  | .giveBack span value, fixed => by
      obtain ⟨here, inside⟩ := fixed_node.mp fixed
      rw [mapSpans, here, map_option_of_fixed Expr.mapSpans_of_fixed inside]
  | .choose span condition thenBody none, fixed => by
      obtain ⟨here, inside⟩ := fixed_node.mp fixed
      obtain ⟨tested, chosen⟩ := fixed_cons.mp inside
      rw [mapSpans, here, condition.mapSpans_of_fixed tested, mapSpansAll_of_fixed thenBody chosen]
  | .choose span condition thenBody (some elseBody), fixed => by
      obtain ⟨here, inside⟩ := fixed_node.mp fixed
      obtain ⟨tested, bodies⟩ := fixed_cons.mp inside
      obtain ⟨chosen, otherwise⟩ := fixed_append.mp bodies
      rw [mapSpans, here, condition.mapSpans_of_fixed tested, mapSpansAll_of_fixed thenBody chosen,
        mapSpansAll_of_fixed elseBody otherwise]
  | .repeatWhile span condition body, fixed => by
      obtain ⟨here, inside⟩ := fixed_node.mp fixed
      obtain ⟨tested, repeated⟩ := fixed_cons.mp inside
      rw [mapSpans, here, condition.mapSpans_of_fixed tested, mapSpansAll_of_fixed body repeated]
  | .evaluate span expr, fixed => by
      obtain ⟨here, inside⟩ := fixed_node.mp fixed
      rw [mapSpans, here, expr.mapSpans_of_fixed inside]

theorem mapSpansAll_of_fixed : (stmts : List Stmt) → Fixed move (extentAll stmts) →
    mapSpansAll move stmts = stmts
  | [], _ => rfl
  | stmt :: rest, fixed => by
      obtain ⟨here, later⟩ := fixed_cons.mp fixed
      rw [mapSpansAll, mapSpans_of_fixed stmt here, mapSpansAll_of_fixed rest later]

end

end Stmt

theorem Tag.mapSpans_of_fixed (tag : Tag) (fixed : Fixed move [tag.extent]) : tag.mapSpans move = tag := by
  rw [mapSpans, (fixed_node.mp fixed).1]

theorem Param.mapSpans_of_fixed (param : Param) (fixed : Fixed move [param.extent]) :
    param.mapSpans move = param := by
  obtain ⟨here, typed⟩ := fixed_node.mp fixed
  rw [mapSpans, here, param.type.mapSpans_of_fixed typed]

theorem Field.mapSpans_of_fixed (field : Field) (fixed : Fixed move field.extents) :
    field.mapSpans move = field := by
  obtain ⟨tagged, inside⟩ := fixed_append.mp fixed
  obtain ⟨typed, valued⟩ := fixed_append.mp inside
  rw [mapSpans, map_of_fixed Tag.mapSpans_of_fixed tagged, map_option_of_fixed TypeRef.mapSpans_of_fixed typed,
    map_option_of_fixed Expr.mapSpans_of_fixed valued]

theorem Method.mapSpans_of_fixed (method : Method) (fixed : Fixed move method.extents) :
    method.mapSpans move = method := by
  obtain ⟨tagged, inside⟩ := fixed_append.mp fixed
  obtain ⟨given, behind⟩ := fixed_append.mp inside
  obtain ⟨typed, body⟩ := fixed_cons.mp behind
  rw [mapSpans, map_of_fixed Tag.mapSpans_of_fixed tagged, map_of_fixed Param.mapSpans_of_fixed given,
    method.returnType.mapSpans_of_fixed typed, map_of_fixed Stmt.mapSpans_of_fixed body]

theorem Constructor.mapSpans_of_fixed (constructor : Constructor)
    (fixed : Fixed move constructor.extents) : constructor.mapSpans move = constructor := by
  obtain ⟨tagged, inside⟩ := fixed_append.mp fixed
  obtain ⟨given, body⟩ := fixed_append.mp inside
  rw [mapSpans, map_of_fixed Tag.mapSpans_of_fixed tagged, map_of_fixed Param.mapSpans_of_fixed given,
    map_of_fixed Stmt.mapSpans_of_fixed body]

mutual

theorem Member.mapSpans_of_fixed : (member : Member) → Fixed move [member.extent] →
    member.mapSpans move = member
  | .field span decl, fixed => by
      obtain ⟨here, inside⟩ := fixed_node.mp fixed
      rw [Member.mapSpans, here, decl.mapSpans_of_fixed inside]
  | .method span decl, fixed => by
      obtain ⟨here, inside⟩ := fixed_node.mp fixed
      rw [Member.mapSpans, here, decl.mapSpans_of_fixed inside]
  | .constructor span decl, fixed => by
      obtain ⟨here, inside⟩ := fixed_node.mp fixed
      rw [Member.mapSpans, here, decl.mapSpans_of_fixed inside]
  | .initializer span body, fixed => by
      obtain ⟨here, inside⟩ := fixed_node.mp fixed
      rw [Member.mapSpans, here, map_of_fixed Stmt.mapSpans_of_fixed inside]
  | .nested span decl, fixed => by
      obtain ⟨here, inside⟩ := fixed_node.mp fixed
      rw [Member.mapSpans, here, Class.mapSpans_of_fixed decl inside]

theorem Class.mapSpans_of_fixed : (decl : Class) → Fixed move decl.extents → decl.mapSpans move = decl
  | ⟨tags, isPublic, name, members⟩, fixed => by
      obtain ⟨tagged, inside⟩ := fixed_append.mp fixed
      rw [Class.mapSpans, map_of_fixed Tag.mapSpans_of_fixed tagged,
        Member.mapSpansAll_of_fixed members inside]

theorem Member.mapSpansAll_of_fixed : (members : List Member) → Fixed move (Member.extentAll members) →
    Member.mapSpansAll move members = members
  | [], _ => rfl
  | member :: rest, fixed => by
      obtain ⟨here, later⟩ := fixed_cons.mp fixed
      rw [Member.mapSpansAll, Member.mapSpans_of_fixed member here, Member.mapSpansAll_of_fixed rest later]

end

theorem Declaration.mapSpans_of_fixed (decl : Declaration) (fixed : Fixed move [decl.extent]) :
    decl.mapSpans move = decl := by
  cases decl with
  | importPath span path => rw [mapSpans, (fixed_node.mp fixed).1]
  | type span decl =>
      obtain ⟨here, inside⟩ := fixed_node.mp fixed
      rw [mapSpans, here, decl.mapSpans_of_fixed inside]
  | function span decl =>
      obtain ⟨here, inside⟩ := fixed_node.mp fixed
      rw [mapSpans, here, decl.mapSpans_of_fixed inside]

/-- Every range of a program is that of one of its parts. -/
theorem Program.mapSpans_of_fixed (program : Program)
    (fixed : ∀ part ∈ program.nodes, move part.span = part.span) : program.mapSpans move = program := by
  rw [mapSpans, map_of_fixed Declaration.mapSpans_of_fixed fixed]

end DataClass
