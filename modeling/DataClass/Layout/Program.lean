import DataClass.Grammar.Declaration
import DataClass.Layout.Stmt
import DataClass.Text.Line
namespace DataClass.Layout

/-! Programs as text: one canonical form for each style. Comments are not part of a program, so they
are not written. -/

def tagLines (tags : List Tag) : List Line :=
  tags.map fun tag => .plain ("@" ++ tag.dotted)

def visibilityText (isPublic : Bool) : String := if isPublic then "pub " else ""

def paramText (param : Param) : String := param.name ++ ": " ++ param.type.text

def paramsText (params : List Param) : String :=
  "(" ++ ", ".intercalate (params.map paramText) ++ ")"

/-- A return type behind a colon. Nothing is written for `void`. -/
def returnText (type : TypeRef) : String :=
  if type.isVoid then "" else ": " ++ type.text

def fieldLines (quote : Quote) (field : Field) : List Line :=
  tagLines field.tags ++
    [.plain (visibilityText field.isPublic ++ field.name ++ typeSuffix field.type ++
      valueSuffix quote field.default ++ ";")]

def methodLines (quote : Quote) (method : Method) : List Line :=
  tagLines method.tags ++
    Line.block
      (visibilityText method.isPublic ++ "fn " ++ method.name ++ paramsText method.params ++
        returnText method.returnType ++ " ")
      (bodyLines quote method.body)

def constructorLines (quote : Quote) (constructor : Constructor) : List Line :=
  tagLines constructor.tags ++
    Line.block (visibilityText constructor.isPublic ++ "new" ++ paramsText constructor.params ++ " ")
      (bodyLines quote constructor.body)

/-- The blank lines before a member: none before the first one, and none between two fields. -/
def memberGap (style : Style) (previous : Option Member) (next : Member) : List Line :=
  match previous with
  | none => []
  | some previous =>
      if previous.isField && next.isField then []
      else List.replicate style.blankLinesMembers .blank

mutual

def memberLines (style : Style) : Member → List Line
  | .field _ decl => fieldLines style.quote decl
  | .method _ decl => methodLines style.quote decl
  | .constructor _ decl => constructorLines style.quote decl
  | .initializer _ body => Line.block "init " (bodyLines style.quote body)
  | .nested _ decl => classLines style decl

def classLines (style : Style) : Class → List Line
  | ⟨tags, isPublic, name, members⟩ =>
      tagLines tags ++
        Line.block (visibilityText isPublic ++ "class " ++ name ++ " ")
          (membersLines style none members)

/-- The lines of the members behind a member that has been written. -/
def membersLines (style : Style) (previous : Option Member) : List Member → List Line
  | [] => []
  | member :: rest =>
      memberGap style previous member ++ memberLines style member ++
        membersLines style (some member) rest

end

def declarationLines (style : Style) : Declaration → List Line
  | .importPath _ path => [.plain ("import " ++ ".".intercalate path ++ ";")]
  | .type _ decl => classLines style decl
  | .function _ decl => methodLines style.quote decl

/-- The blank lines before a declaration: none before the first one, and none between two imports. -/
def declarationGap (style : Style) (previous : Option Declaration) (next : Declaration) :
    List Line :=
  match previous with
  | none => []
  | some previous =>
      if previous.isImport && next.isImport then []
      else List.replicate style.blankLinesTopLevel .blank

def declarationsLines (style : Style) (previous : Option Declaration) :
    List Declaration → List Line
  | [] => []
  | declaration :: rest =>
      declarationGap style previous declaration ++ declarationLines style declaration ++
        declarationsLines style (some declaration) rest

end Layout

namespace Program

open Layout

/-- The program written in a style. -/
def text (style : Style) (program : Program) : String :=
  Line.renderAll style.indentWidth (declarationsLines style none program.declarations)

end Program

namespace Layout

/-- Write the program of a text in a style. -/
def format (style : Style) (source : String) : Except (List Diagnostic) String := do
  return (← Program.ofSource source).text style

/-- Whether a text is written in the standard style already. -/
def isFormatted (source : String) : Except (List Diagnostic) Bool := do
  return source == (← format .standard source)

/-- What formatting would change, if it would change anything. -/
def difference (source : String) : Except (List Diagnostic) (Option String) := do
  let formatted ← format .standard source
  return if source == formatted then none else some (lineDifference source formatted)

end Layout

end DataClass
