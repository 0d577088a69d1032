import DataClass.Layout.Program
import DataClass.Proofs.Layout.Stmt
namespace DataClass

/-! The written form of a program stands for the tokens of the program. -/

open Token TokenKind Layout

namespace Layout

theorem tagLines_spell {tags : List Tag} (lexical : Lexical (Tag.kindsAll tags)) :
    LinesSpell (tagLines tags) (Tag.kindsAll tags) := by
  induction tags with
  | nil => exact .nil
  | cons tag tags ih =>
      rw [Tag.kindsAll_cons] at lexical
      have mark : Front "@" [.punctuation .at] := front_punctuation .at
      have first : LinesSpell [.plain ("@" ++ tag.dotted)] tag.kinds :=
        linesSpell_plain (mark.before (fragment_path lexical.tail.left))
      exact first.append (ih lexical.tail.right)

theorem front_visibility (isPublic : Bool) :
    Front (visibilityText isPublic) (visibility isPublic) := by
  cases isPublic with
  | false => exact front_empty
  | true => exact front_word .pubWord

theorem fragment_param {param : Param} (lexical : Lexical param.kinds) :
    Fragment (paramText param) param.kinds := by
  have named := fragment_identifier lexical.head
  rw [paramText, String.append_assoc]
  exact named.before (fun rest _ => parts_colon.append rest)
    (front_colon.before (param.type.fragment_text lexical.tail.tail))

theorem front_params {params : List Param}
    (lexical : Lexical (parenthesized (params.map Param.kinds))) :
    Front (paramsText params) (parenthesized (params.map Param.kinds)) :=
  front_parenthesized (fragment_separated fun _ inside =>
    fragment_param (lexical.parenthesized _ (List.mem_map_of_mem inside)))

theorem parts_params (params : List Param) : Parts (paramsText params) := by
  have opens : Parts "(" := parts_of_chars rfl rfl (by decide)
  exact opens.append.append

theorem fragment_returnText {type : TypeRef} (lexical : Lexical type.returnKinds) :
    Fragment (returnText type) type.returnKinds := by
  unfold returnText TypeRef.returnKinds
  unfold TypeRef.returnKinds at lexical
  split
  · exact front_empty.fragment
  · next value =>
      rw [if_neg value] at lexical
      exact front_colon.before (type.fragment_text lexical.tail)

variable (quote : Quote)

theorem fieldLines_spell {field : Field}
    (lexical : Lexical (modifiers field.tags field.isPublic ++ field.bareKinds)) :
    LinesSpell (fieldLines quote field)
      (modifiers field.tags field.isPublic ++ field.bareKinds) := by
  have line := (front_visibility field.isPublic).append
    (front_declared quote (lexical.right : Lexical field.bareKinds))
  rw [modifiers, List.append_assoc]
  exact (tagLines_spell lexical.left.left).append
    (linesSpell_plain (by simpa [String.append_assoc, Field.bareKinds] using line.fragment))

theorem front_fn : Front "fn " [.keyword .fnWord] := front_word .fnWord

theorem methodLines_spell {method : Method}
    (lexical : Lexical (modifiers method.tags method.isPublic ++ .keyword .fnWord :: method.bareKinds)) :
    LinesSpell (methodLines quote method)
      (modifiers method.tags method.isPublic ++ .keyword .fnWord :: method.bareKinds) := by
  have bare : Lexical method.bareKinds := lexical.right.tail
  have named := ((front_visibility method.isPublic).append front_fn).before
    (fragment_identifier bare.head)
  have given := named.closed (parts_params method.params) (front_params bare.tail.left)
  have head := (given.before (fragment_returnText bare.tail.right.left)).closed parts_space front_space
  have body := Stmt.body_spell quote method.body bare.tail.right.right.tail.left
  have all := (tagLines_spell lexical.left.left).append (block_spells head body)
  simpa [methodLines, modifiers, Method.bareKinds] using all

theorem constructorLines_spell {constructor : Constructor}
    (lexical : Lexical (modifiers constructor.tags constructor.isPublic ++
      .keyword .newWord :: constructor.bareKinds)) :
    LinesSpell (constructorLines quote constructor)
      (modifiers constructor.tags constructor.isPublic ++
        .keyword .newWord :: constructor.bareKinds) := by
  have bare : Lexical constructor.bareKinds := lexical.right.tail
  have word : Fragment "new" [.keyword .newWord] := fragment_keyword .newWord
  have named := (front_visibility constructor.isPublic).before word
  have given := named.closed (parts_params constructor.params) (front_params bare.left)
  have head := given.append front_space
  have body := Stmt.body_spell quote constructor.body bare.right.tail.left
  have all := (tagLines_spell lexical.left.left).append (block_spells head body)
  simpa [constructorLines, modifiers, Constructor.bareKinds, String.append_assoc] using all

theorem memberGap_spell (style : Style) (previous : Option Member) (next : Member) :
    LinesSpell (memberGap style previous next) [] := by
  unfold memberGap
  split
  · exact .nil
  · split
    · exact .nil
    · exact linesSpell_blanks _

variable (style : Style)

mutual

theorem memberLines_spell : (member : Member) → Lexical member.kinds →
    LinesSpell (memberLines style member) member.kinds
  | .field _ decl, lexical => by
      rw [Member.kinds] at lexical ⊢
      rw [memberLines]
      exact fieldLines_spell style.quote lexical
  | .method _ decl, lexical => by
      rw [Member.kinds] at lexical ⊢
      rw [memberLines]
      exact methodLines_spell style.quote lexical
  | .constructor _ decl, lexical => by
      rw [Member.kinds] at lexical ⊢
      rw [memberLines]
      exact constructorLines_spell style.quote lexical
  | .initializer _ body, lexical => by
      rw [Member.kinds] at lexical ⊢
      rw [memberLines]
      have word : Front "init " [.keyword .initWord] := front_word .initWord
      exact block_spells word (Stmt.body_spell style.quote body lexical.tail.tail.left)
  | .nested _ decl, lexical => by
      rw [Member.kinds] at lexical ⊢
      rw [memberLines]
      exact classLines_spell decl lexical

theorem classLines_spell : (decl : Class) → Lexical decl.kinds →
    LinesSpell (classLines style decl) decl.kinds
  | ⟨tags, isPublic, name, members⟩, lexical => by
      rw [Class.kinds] at lexical ⊢
      rw [classLines]
      have word : Front "class " [.keyword .classWord] := front_word .classWord
      have named := ((front_visibility isPublic).append word).before
        (fragment_identifier lexical.right.tail.head)
      have head := named.closed parts_space front_space
      have body := membersLines_spell none members lexical.right.tail.tail.tail.left
      have all := (tagLines_spell lexical.left.left).append (block_spells head body)
      simpa [modifiers] using all

theorem membersLines_spell (previous : Option Member) : (members : List Member) →
    Lexical (Member.kindsAll members) →
    LinesSpell (membersLines style previous members) (Member.kindsAll members)
  | [], _ => .nil
  | member :: rest, lexical => by
      rw [Member.kindsAll] at lexical ⊢
      rw [membersLines]
      exact ((memberGap_spell style previous member).append
        (memberLines_spell member lexical.left)).append
          (membersLines_spell (some member) rest lexical.right)

end

theorem declarationLines_spell {declaration : Declaration} (lexical : Lexical declaration.kinds) :
    LinesSpell (declarationLines style declaration) declaration.kinds := by
  cases declaration with
  | importPath span path =>
      have word : Front "import " [.keyword .importWord] := front_word .importWord
      have line := (word.before (fragment_path lexical.tail.left)).closed parts_semicolon
        front_semicolon
      exact linesSpell_plain (by simpa [Declaration.kinds] using line.fragment)
  | type span decl => exact classLines_spell style decl lexical
  | function span decl => exact methodLines_spell style.quote lexical

theorem declarationGap_spell (previous : Option Declaration) (next : Declaration) :
    LinesSpell (declarationGap style previous next) [] := by
  unfold declarationGap
  split
  · exact .nil
  · split
    · exact .nil
    · exact linesSpell_blanks _

theorem declarationsLines_spell (previous : Option Declaration) {declarations : List Declaration}
    (lexical : Lexical (declarations.flatMap Declaration.kinds)) :
    LinesSpell (declarationsLines style previous declarations)
      (declarations.flatMap Declaration.kinds) := by
  induction declarations generalizing previous with
  | nil => exact .nil
  | cons declaration rest ih =>
      rw [List.flatMap_cons] at lexical ⊢
      exact ((declarationGap_spell style previous declaration).append
        (declarationLines_spell style lexical.left)).append (ih (some declaration) lexical.right)

end Layout

namespace Program

/-- The written form of a program is cut into the tokens of the program. -/
theorem text_spells {program : Program} (lexical : Lexical program.kinds) (style : Style) :
    Spells (program.text style).toList (program.kinds.map written ++ [.endOfFile]) := by
  have lines := declarationsLines_spell style none lexical
  have front := lines.front style.indentWidth
  simpa [text, kinds] using front [] [.endOfFile] spells_nil

end Program

end DataClass
