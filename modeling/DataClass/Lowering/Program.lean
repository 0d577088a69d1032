import DataClass.Lowering.Stmt
namespace DataClass.Lowering

/-! Lowering of declarations.

A class becomes a structure and its methods an implementation of it. Nested classes become structures
of their own. Initializers and the constructor together become the function `new`.
-/

def visibility (isPublic : Bool) : Tokens := if isPublic then Tokens.word "pub" else []

/-- A mark on an item such as `#[name(a, b)]`, without its first sign. -/
def itemMark (name : String) (arguments : List String) : Tokens :=
  Tokens.inBrackets
    (.word name :: Tokens.inParens (Tokens.commaSeparated (arguments.map Tokens.word)))

/-- The lints that generated code need not pass. -/
def lintAllowances : Tokens :=
  Tokens.mark "#" ++ Tokens.mark "!" ++
    itemMark "allow"
      ["dead_code", "unused_imports", "unused_mut", "unused_variables", "non_snake_case"]

def lowerParam (context : Context) (param : Param) : Lowered Tokens := do
  let name ← identifier param.name
  let type ← lowerType param.type
  return binding context param.name name ++ .mark ":" :: type

def lowerParams (context : Context) (params : List Param) : Lowered (List Tokens) :=
  params.mapM (lowerParam context)

def lowerReturnType (type : TypeRef) : Lowered Tokens :=
  if type.isVoid then return []
  else do return Tokens.mark "->" ++ (← lowerType type)

/-- A function; a method has its receiver in front of its parameters. -/
def lowerMethod (context : Context) (receiver : List Tokens) (method : Method) : Lowered Tokens := do
  let name ← identifier method.name
  let params ← lowerParams context method.params
  let returnType ← lowerReturnType method.returnType
  let body ← lowerBody context method.body
  return visibility method.isPublic ++ .word "fn" :: name ::
    Tokens.inParens (Tokens.commaSeparated (receiver ++ params)) ++ returnType ++
    Tokens.inBraces body

def lowerImport (path : List String) : Lowered Tokens := do
  return ended (.word "use" :: Tokens.path (← identifiers path))

def lowerFunction (table : ClassTable) (method : Method) : Lowered Tokens :=
  lowerMethod ⟨table, none, .absent, method.body⟩ [] method

/-- A field of a structure, and what it begins as. -/
structure LoweredField where
  declaration : Tokens
  initial : Tokens

def defaultCall : Tokens :=
  Tokens.word "Default" ++ Tokens.mark "::" ++ Tokens.word "default" ++ Tokens.inParens []

/-- What a field with some default begins as. -/
def lowerInitial (table : ClassTable) (info : ClassInfo) : Option Expr → Lowered Tokens
  | some default => lowerExpr ⟨table, some info, .absent, []⟩ .value default
  | none => return defaultCall

def lowerField (table : ClassTable) (info : ClassInfo) (field : Field) : Lowered LoweredField :=
  match info.fieldType? field.name with
  | none => throw (.untypedField field.name info.name)
  | some type => do
      let name ← identifier field.name
      let type ← lowerType type
      let initial ← lowerInitial table info field.default
      return ⟨visibility field.isPublic ++ name :: .mark ":" :: type, name :: .mark ":" :: initial⟩

def derivation (hasDefaults : Bool) : Tokens :=
  Tokens.mark "#" ++
    itemMark "derive" (if hasDefaults then ["Debug", "Clone"] else ["Debug", "Clone", "Default"])

def structureTokens (decl : Class) (name : TargetToken) (fields : List LoweredField) : Tokens :=
  visibility decl.isPublic ++ .word "struct" :: name ::
    Tokens.inBraces (Tokens.commaSeparated (fields.map (·.declaration)))

/-- The implementation of `Default` for a class whose fields have defaults of their own. -/
def defaultImplementation (name : TargetToken) (fields : List LoweredField) : Tokens :=
  let built := .word "Self" :: Tokens.inBraces (Tokens.commaSeparated (fields.map (·.initial)))
  let function := [.word "fn", .word "default"] ++ Tokens.inParens [] ++ Tokens.mark "->" ++
    .word "Self" :: Tokens.inBraces built
  [.word "impl", .word "Default", .word "for", name] ++ Tokens.inBraces function

/-- The function `new`: a value that starts as the default of its class and is changed by a body. -/
def lowerBuilder (table : ClassTable) (info : ClassInfo) (isPublic : Bool) (params : List Param)
    (body : List Stmt) : Lowered Tokens := do
  let context : Context := ⟨table, some info, .built, body⟩
  let params ← lowerParams context params
  let stmts ← lowerBody context body
  let start := ended ([.word "let", .word "mut", .word "this", .mark "=", .word "Self"] ++
    Tokens.mark "::" ++ .word "default" :: Tokens.inParens [])
  return visibility isPublic ++ [.word "fn", .word "new"] ++
    Tokens.inParens (Tokens.commaSeparated params) ++ Tokens.mark "->" ++
    .word "Self" :: Tokens.inBraces (start ++ stmts ++ [.word "this"])

/-- Initializers run first and in their order, and then the constructor. -/
def lowerNew (table : ClassTable) (info : ClassInfo) (decl : Class) : Lowered (List Tokens) :=
  if info.hasNew then
    let initializers := (decl.members.filterMap Member.initializer?).flatten
    match decl.members.filterMap Member.constructor? with
    | [] => do return [← lowerBuilder table info true [] initializers]
    | [constructor] => do
        return [← lowerBuilder table info constructor.isPublic constructor.params
          (initializers ++ constructor.body)]
    | _ => throw (.severalConstructors decl.name)
  else return []

def receiverTokens (changes : Bool) : Tokens :=
  if changes then [.mark "&", .word "mut", .word "self"] else [.mark "&", .word "self"]

def lowerClassMethod (table : ClassTable) (info : ClassInfo) (method : Method) : Lowered Tokens :=
  lowerMethod ⟨table, some info, .borrowed, method.body⟩
    [receiverTokens (info.mutators.contains method.name)] method

/-- A block of functions for a class, left out when there are none. -/
def implementation (name : TargetToken) (functions : List Tokens) : Tokens :=
  if functions.isEmpty then []
  else [.word "impl", name] ++ Tokens.inBraces functions.flatten

def lowerClass (table : ClassTable) (decl : Class) : Lowered Tokens :=
  match table.find? decl.name with
  | none => throw (.unknownClass decl.name)
  | some info => do
      let name ← identifier decl.name
      let fields ← decl.fields.mapM fun entry => lowerField table info entry.field
      let hasDefaults := decl.fields.any (·.field.default.isSome)
      let new ← lowerNew table info decl
      let methods ← decl.methods.mapM (lowerClassMethod table info)
      return derivation hasDefaults ++ structureTokens decl name fields ++
        (if hasDefaults then defaultImplementation name fields else []) ++
        implementation name (new ++ methods)

def lowerDeclaration (table : ClassTable) : Declaration → Lowered Tokens
  | .importPath _ path => lowerImport path
  | .function _ decl => lowerFunction table decl
  | .type _ decl => do
      let classes ← (classTree decl).mapM (lowerClass table)
      return classes.flatten

/-- What is written around the lowered program. -/
structure EmitOptions where
  header : Bool
  lintAllowances : Bool
deriving DecidableEq

def EmitOptions.standard : EmitOptions := ⟨true, true⟩

/-- Generated code: its first line, if it is a comment, and its tokens. -/
structure TargetFile where
  header : Option String
  tokens : Tokens
deriving DecidableEq

def headerLine : String := "// Generated by datagen v0.1.0-alpha.4"

/-- What turns programs into generated code, one after another. It keeps what it has learned about the
classes of the last program. -/
structure Emitter where
  options : EmitOptions
  table : ClassTable

namespace Emitter

def fresh (options : EmitOptions) : Emitter := ⟨options, .empty⟩

/-- Lower the declarations of a program, whose classes are known. -/
def lowerProgram (emitter : Emitter) (program : Program) : Lowered TargetFile := do
  let items ← program.declarations.mapM (lowerDeclaration emitter.table)
  return ⟨if emitter.options.header then some headerLine else none,
    (if emitter.options.lintAllowances then lintAllowances else []) ++ items.flatten⟩

/-- Lower a program. All classes are looked at first, and then the declarations one by one. -/
def emit (program : Program) (emitter : Emitter) : Lowered TargetFile × Emitter :=
  match emitter.table.collect program with
  | (table, some fault) => (.error fault, { emitter with table })
  | (table, none) =>
      let emitter := { emitter with table }
      (emitter.lowerProgram program, emitter)

/-- The emitter after it has been given programs one after another, whether they could be lowered or
not. -/
def emitAll (programs : List Program) (emitter : Emitter) : Emitter :=
  programs.foldl (fun emitter program => (emitter.emit program).2) emitter

end Emitter

/-- Lower a program that nothing has been lowered before. -/
def lower (options : EmitOptions) (program : Program) : Lowered TargetFile :=
  ((Emitter.fresh options).emit program).1

end DataClass.Lowering
