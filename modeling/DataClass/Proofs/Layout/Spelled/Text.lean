import DataClass.Layout.Program
import DataClass.Proofs.Layout.Pieces
import DataClass.Proofs.Layout.Spelled.Kinds
namespace DataClass

/-! A program is written in the same way as the program that it is read back as. -/

open TokenKind Layout

namespace TypeRef

mutual

theorem text_erase : (type : TypeRef) → type.erase.text = type.text
  | .named _ path [] => rfl
  | .named _ path (first :: rest) => by
      rw [erase_named, List.map_cons, text, text, text_erase first, textRest_erase rest]
  | .array _ element => by
      rw [erase_array, text, text, text_erase element]
  | .void _ => rfl

theorem textRest_erase : (types : List TypeRef) → textRest (types.map erase) = textRest types
  | [] => rfl
  | type :: rest => by
      rw [List.map_cons, textRest, textRest, text_erase type, textRest_erase rest]

end

end TypeRef

namespace Expr

variable (quote : Quote)

mutual

theorem text_spelled : (expr : Expr) → Lexical expr.kinds →
    exprText quote expr.spelled = exprText quote expr
  | .int _ _, _ | .string _ _, _ | .bool _ _, _ | .null _, _ | .ident _ _, _ | .this _, _ => by
      simp [spelled, exprText]
  | .float _ value, lexical => by
      rw [kinds] at lexical
      rw [spelled]
      split
      · rfl
      · next infinite =>
          rw [exprText, exprText,
            Binary64.pointedText_of_infinite lexical.head (eq_false_of_ne_true infinite)]
          rfl
  | .field _ base _, lexical => by
      rw [kinds] at lexical
      rw [spelled, exprText, exprText, base.text_spelled lexical.left]
  | .call _ callee arguments, lexical => by
      rw [kinds, kindsAll_eq_map] at lexical
      rw [spelled, exprText, exprText, callee.text_spelled lexical.left,
        arguments_spelled arguments fun argument inside =>
          lexical.right.parenthesized _ (List.mem_map_of_mem inside)]
  | .methodCall _ receiver _ arguments, lexical => by
      rw [kinds, kindsAll_eq_map] at lexical
      rw [spelled, exprText, exprText, receiver.text_spelled lexical.left,
        arguments_spelled arguments fun argument inside =>
          lexical.right.tail.tail.parenthesized _ (List.mem_map_of_mem inside)]
  | .unary _ _ operand, lexical => by
      rw [kinds] at lexical
      rw [spelled, exprText, exprText, operand.text_spelled lexical.tail]
  | .binary _ left _ right, lexical => by
      rw [kinds] at lexical
      rw [spelled, exprText, exprText, left.text_spelled lexical.left,
        right.text_spelled lexical.right.tail]
  | .paren _ inner, lexical => by
      rw [kinds] at lexical
      rw [spelled, exprText, exprText, inner.text_spelled lexical.tail.left]

theorem arguments_spelled : (exprs : List Expr) → (∀ expr ∈ exprs, Lexical expr.kinds) →
    argumentsText quote (spelledAll exprs) = argumentsText quote exprs
  | [], _ => rfl
  | first :: rest, lexical => by
      obtain ⟨here, later⟩ := List.forall_mem_cons.mp lexical
      rw [spelledAll, argumentsText, argumentsText, first.text_spelled here,
        laterArguments_spelled rest later]

theorem laterArguments_spelled : (exprs : List Expr) → (∀ expr ∈ exprs, Lexical expr.kinds) →
    laterArgumentsText quote (spelledAll exprs) = laterArgumentsText quote exprs
  | [], _ => rfl
  | next :: rest, lexical => by
      obtain ⟨here, later⟩ := List.forall_mem_cons.mp lexical
      rw [spelledAll, laterArgumentsText, laterArgumentsText, next.text_spelled here,
        laterArguments_spelled rest later]

end

end Expr

namespace Layout

variable (quote : Quote)

theorem typeSuffix_erase (type : Option TypeRef) :
    typeSuffix (type.map TypeRef.erase) = typeSuffix type := by
  cases type <;> simp [typeSuffix, TypeRef.text_erase]

theorem valueSuffix_spelled {value : Option Expr} (lexical : Lexical (Expr.equalsKinds value)) :
    valueSuffix quote (value.map Expr.spelled) = valueSuffix quote value := by
  cases value with
  | none => rfl
  | some value =>
      rw [Option.map_some, valueSuffix, valueSuffix, value.text_spelled quote lexical.tail]

end Layout

namespace Stmt

variable (quote : Quote)

mutual

theorem lines_spelled : (stmt : Stmt) → (head : String) → Lexical stmt.kinds →
    stmtLines quote head stmt.spelled = stmtLines quote head stmt
  | .declare _ _ type value, head, lexical => by
      rw [kinds] at lexical
      rw [spelled, stmtLines, stmtLines, typeSuffix_erase,
        valueSuffix_spelled quote lexical.tail.tail.right.left]
  | .assign _ target value, head, lexical => by
      rw [kinds] at lexical
      rw [spelled, stmtLines, stmtLines, target.text_spelled quote lexical.left,
        value.text_spelled quote lexical.right.tail.left]
  | .giveBack _ none, head, _ => by
      rw [spelled, Option.map_none, stmtLines, stmtLines]
  | .giveBack _ (some value), head, lexical => by
      rw [kinds] at lexical
      rw [spelled, Option.map_some, stmtLines, stmtLines, value.text_spelled quote lexical.tail.left]
  | .choose _ condition thenBody none, head, lexical => by
      rw [kinds] at lexical
      rw [spelled, stmtLines, stmtLines, condition.text_spelled quote lexical.tail.left,
        body_spelled thenBody lexical.tail.right.tail.left]
  | .choose _ condition thenBody (some elseBody), head, lexical => by
      rw [kinds] at lexical
      rw [spelled, stmtLines, stmtLines, condition.text_spelled quote lexical.tail.left,
        body_spelled thenBody lexical.tail.right.left.tail.left]
      exact congrArg _ (else_spelled elseBody _ lexical.tail.right.right.tail)
  | .repeatWhile _ condition body, head, lexical => by
      rw [kinds] at lexical
      rw [spelled, stmtLines, stmtLines, condition.text_spelled quote lexical.tail.left,
        body_spelled body lexical.tail.right.tail.left]
  | .evaluate _ expr, head, lexical => by
      rw [kinds] at lexical
      rw [spelled, stmtLines, stmtLines, expr.text_spelled quote lexical.left]

theorem body_spelled : (body : List Stmt) → Lexical (bodyKinds body) →
    bodyLines quote (spelledAll body) = bodyLines quote body
  | [], _ => rfl
  | stmt :: rest, lexical => by
      rw [bodyKinds] at lexical
      rw [spelledAll, bodyLines, bodyLines, stmt.lines_spelled "" lexical.left,
        body_spelled rest lexical.right]

theorem else_spelled : (body : List Stmt) → (head : String) → Lexical (elseKinds body) →
    elseLines quote head (spelledAll body) = elseLines quote head body
  | [], head, _ => rfl
  | [only], head, lexical => by
      rw [elseKinds] at lexical
      simp only [spelledAll, elseLines, isChoice_spelled]
      split
      · next choice =>
          rw [if_pos choice] at lexical
          exact only.lines_spelled head lexical
      · next choice =>
          rw [if_neg choice] at lexical
          rw [only.lines_spelled "" lexical.tail.left]
  | first :: second :: rest, head, lexical => by
      rw [elseKinds] at lexical
      have listed := lexical.tail.left
      rw [spelledAll, spelledAll, elseLines, elseLines, first.lines_spelled "" listed.left,
        second.lines_spelled "" listed.right.left, body_spelled rest listed.right.right]

end

end Stmt

namespace Layout

theorem tagLines_erase (tags : List Tag) : tagLines (tags.map Tag.erase) = tagLines tags := by
  simp [tagLines, Tag.erase, Tag.mapSpans, Tag.dotted]

theorem paramsText_erase (params : List Param) :
    paramsText (params.map Param.erase) = paramsText params := by
  have same (param : Param) : paramText param.erase = paramText param :=
    congrArg (param.name ++ ": " ++ ·) param.type.text_erase
  have all : paramText ∘ Param.erase = paramText := funext same
  rw [paramsText, paramsText, List.map_map, all]

theorem returnText_erase (type : TypeRef) : returnText type.erase = returnText type := by
  rw [returnText, returnText, TypeRef.isVoid_erase, TypeRef.text_erase]

variable (quote : Quote)

theorem bodyLines_spelled {body : List Stmt} (lexical : Lexical (Stmt.bodyKinds body)) :
    bodyLines quote (body.map Stmt.spelled) = bodyLines quote body := by
  rw [← Stmt.spelledAll_eq_map, Stmt.body_spelled quote body lexical]

theorem fieldLines_spelled {field : Field} (lexical : Lexical field.bareKinds) :
    fieldLines quote field.spelled = fieldLines quote field := by
  simp only [fieldLines, Field.spelled, tagLines_erase, typeSuffix_erase,
    valueSuffix_spelled quote lexical.tail.right.left]

theorem methodLines_spelled {method : Method} (lexical : Lexical method.bareKinds) :
    methodLines quote method.spelled = methodLines quote method := by
  simp only [methodLines, Method.spelled, tagLines_erase, paramsText_erase, returnText_erase,
    bodyLines_spelled quote lexical.tail.right.right.tail.left]

theorem constructorLines_spelled {constructor : Constructor}
    (lexical : Lexical constructor.bareKinds) :
    constructorLines quote constructor.spelled = constructorLines quote constructor := by
  simp only [constructorLines, Constructor.spelled, tagLines_erase, paramsText_erase,
    bodyLines_spelled quote lexical.right.tail.left]

theorem isField_spelled (member : Member) : member.spelled.isField = member.isField := by
  cases member <;> simp [Member.spelled, Member.isField]

theorem memberGap_spelled (style : Style) (previous : Option Member) (next : Member) :
    memberGap style (previous.map Member.spelled) next.spelled = memberGap style previous next := by
  cases previous <;> simp [memberGap, isField_spelled]

variable (style : Style)

mutual

theorem memberLines_spelled : (member : Member) → Lexical member.kinds →
    memberLines style member.spelled = memberLines style member
  | .field _ decl, lexical => by
      rw [Member.kinds] at lexical
      rw [Member.spelled, memberLines, memberLines, fieldLines_spelled _ lexical.right]
  | .method _ decl, lexical => by
      rw [Member.kinds] at lexical
      rw [Member.spelled, memberLines, memberLines, methodLines_spelled _ lexical.right.tail]
  | .constructor _ decl, lexical => by
      rw [Member.kinds] at lexical
      rw [Member.spelled, memberLines, memberLines, constructorLines_spelled _ lexical.right.tail]
  | .initializer _ body, lexical => by
      rw [Member.kinds] at lexical
      rw [Member.spelled, memberLines, memberLines, bodyLines_spelled _ lexical.tail.tail.left]
  | .nested _ decl, lexical => by
      rw [Member.kinds] at lexical
      rw [Member.spelled, memberLines, memberLines, classLines_spelled decl lexical]

theorem classLines_spelled : (decl : Class) → Lexical decl.kinds →
    classLines style decl.spelled = classLines style decl
  | ⟨tags, isPublic, name, members⟩, lexical => by
      rw [Class.kinds] at lexical
      have inside := membersLines_spelled none members lexical.right.tail.tail.tail.left
      rw [Class.spelled, classLines, classLines, tagLines_erase]
      rw [Option.map_none] at inside
      rw [inside]

theorem membersLines_spelled (previous : Option Member) : (members : List Member) →
    Lexical (Member.kindsAll members) →
    membersLines style (previous.map Member.spelled) (Member.spelledAll members) =
      membersLines style previous members
  | [], _ => rfl
  | member :: rest, lexical => by
      rw [Member.kindsAll] at lexical
      have later := membersLines_spelled (some member) rest lexical.right
      rw [Option.map_some] at later
      rw [Member.spelledAll, membersLines, membersLines, memberGap_spelled,
        memberLines_spelled member lexical.left, later]

end

theorem declarationLines_spelled {declaration : Declaration} (lexical : Lexical declaration.kinds) :
    declarationLines style declaration.spelled = declarationLines style declaration := by
  cases declaration with
  | importPath span path => rfl
  | type span decl => exact classLines_spelled style decl lexical
  | function span decl => exact methodLines_spelled style.quote lexical.right.tail

theorem isImport_spelled (declaration : Declaration) :
    declaration.spelled.isImport = declaration.isImport := by
  cases declaration <;> rfl

theorem declarationGap_spelled (previous : Option Declaration) (next : Declaration) :
    declarationGap style (previous.map Declaration.spelled) next.spelled =
      declarationGap style previous next := by
  cases previous <;> simp [declarationGap, isImport_spelled]

theorem declarationsLines_spelled (previous : Option Declaration) {declarations : List Declaration}
    (lexical : Lexical (declarations.flatMap Declaration.kinds)) :
    declarationsLines style (previous.map Declaration.spelled)
        (declarations.map Declaration.spelled) =
      declarationsLines style previous declarations := by
  induction declarations generalizing previous with
  | nil => rfl
  | cons declaration rest ih =>
      rw [List.flatMap_cons] at lexical
      have later := ih (some declaration) lexical.right
      rw [Option.map_some] at later
      rw [List.map_cons, declarationsLines, declarationsLines, declarationGap_spelled,
        declarationLines_spelled style lexical.left, later]

end Layout

namespace Program

theorem text_spelled {program : Program} (lexical : Lexical program.kinds) (style : Style) :
    program.spelled.text style = program.text style :=
  congrArg (Line.renderAll style.indentWidth) (declarationsLines_spelled style none lexical)

end Program

end DataClass
