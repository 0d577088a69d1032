import DataClass.Layout.Program
import DataClass.Proofs.Layout.Pieces
namespace DataClass

/-! The written forms of types and expressions are fragments that stand for their tokens. -/

open Token TokenKind Layout

namespace TypeRef

theorem unequated_kinds : (type : TypeRef) → Unequated type.kinds
  | .named _ [] [] => unequated_nil
  | .named _ [] (first :: rest) => by
      rw [kinds, kindsAll]
      exact unequated_cons _ (by decide) (by decide)
  | .named _ (segment :: path) _ => by
      rw [kinds]
      exact unequated_cons _ (by simp) (by simp)
  | .array _ element => by
      rw [kinds]
      exact element.unequated_kinds.append (unequated_cons _ (by decide) (by decide))
  | .void _ => by
      rw [kinds]
      exact unequated_cons _ (by decide) (by decide)

theorem text_textRest (first : TypeRef) (rest : List TypeRef) :
    first.text ++ textRest rest = ", ".intercalate ((first :: rest).map text) := by
  induction rest generalizing first with
  | nil => simp [textRest]
  | cons next rest ih =>
      rw [textRest, String.append_assoc, ih]
      simp [String.append_assoc]

theorem text_named (span : Span) (path : List String) (first : TypeRef) (rest : List TypeRef) :
    (named span path (first :: rest)).text =
      ".".intercalate path ++ ("<" ++ (", ".intercalate ((first :: rest).map text) ++ ">")) := by
  rw [text, ← text_textRest]
  simp only [String.append_assoc]

mutual

theorem fragment_text : (type : TypeRef) → Lexical type.kinds → Fragment type.text type.kinds
  | .named _ path [], lexical => by
      rw [kinds, kindsAll, angled, List.append_nil] at lexical ⊢
      rw [text]
      exact fragment_path lexical
  | .named _ path (first :: rest), lexical => by
      rw [kinds, kindsAll_eq_map] at lexical ⊢
      have listed := lexical.right
      rw [angled_of_some (by simp)] at listed
      have each := fragment_all (first :: rest) fun type inside =>
        listed.tail.left.separated _ (List.mem_map_of_mem inside)
      rw [text_named]
      have angle : Parts "<" := parts_of_chars rfl rfl (by decide)
      exact (fragment_path lexical.left).before (fun rest _ => angle.append rest)
        (fragment_angled (by simp) (fragment_separated each)
          (List.forall_mem_map.mpr fun type _ => type.unequated_kinds))
  | .array _ element, lexical => by
      rw [kinds] at lexical ⊢
      rw [text]
      have brackets : Front "[]" [.punctuation .leftBracket, .punctuation .rightBracket] :=
        (front_punctuation .leftBracket).append (front_punctuation .rightBracket)
      have parts : Parts "[]" := parts_of_chars rfl rfl (by decide)
      exact ((element.fragment_text lexical.left).closed parts brackets).fragment
  | .void _, _ => by
      rw [kinds, text]
      exact fragment_keyword .voidWord

theorem fragment_all : (types : List TypeRef) → (∀ type ∈ types, Lexical type.kinds) →
    ∀ type ∈ types, Fragment type.text type.kinds
  | [], _ => nofun
  | first :: rest, lexical => by
      obtain ⟨here, later⟩ := List.forall_mem_cons.mp lexical
      exact List.forall_mem_cons.mpr ⟨first.fragment_text here, fragment_all rest later⟩

end

end TypeRef

namespace Layout

variable {quote : Quote}

theorem stringBody_close (position : Nat) (rest : List Char) :
    stringBody quote.mark position (quote.mark :: rest) =
      ⟨[], true, [], position + quote.mark.utf8Size, rest⟩ := by
  unfold stringBody
  rw [if_pos rfl]

theorem stringBody_escaped {mark char : Char} (known : escaped? mark = some char) (position : Nat)
    (rest : List Char) :
    stringBody quote.mark position ('\\' :: mark :: rest) =
      (stringBody quote.mark (position + 1 + mark.utf8Size) rest).cons char := by
  conv => lhs; unfold stringBody
  rw [if_neg (by cases quote <;> decide), if_pos rfl]
  simp only [known]

theorem stringBody_plain {char : Char} (other : char ≠ quote.mark) (slash : char ≠ '\\')
    (line : char ≠ '\n') (position : Nat) (rest : List Char) :
    stringBody quote.mark position (char :: rest) =
      (stringBody quote.mark (position + char.utf8Size) rest).cons char := by
  conv => lhs; unfold stringBody
  rw [if_neg other, if_neg slash, if_neg line]

theorem escaped?_mark : escaped? quote.mark = some quote.mark := by cases quote <;> rfl

/-- The characters that are written for a character are read as that character. -/
theorem stringBody_escapeChar (char : Char) (position : Nat) (rest : List Char) :
    ∃ stop, stringBody quote.mark position (escapeChar quote.mark char ++ rest) =
      (stringBody quote.mark stop rest).cons char := by
  by_cases line : char = '\n'
  · exact line ▸ ⟨_, stringBody_escaped rfl position rest⟩
  by_cases back : char = '\r'
  · exact back ▸ ⟨_, stringBody_escaped rfl position rest⟩
  by_cases tab : char = '\t'
  · exact tab ▸ ⟨_, stringBody_escaped rfl position rest⟩
  by_cases slash : char = '\\'
  · exact slash ▸ ⟨_, stringBody_escaped rfl position rest⟩
  rw [escapeChar, if_neg line, if_neg back, if_neg tab, if_neg slash]
  by_cases same : char = quote.mark
  · rw [if_pos same, same]
    exact ⟨_, stringBody_escaped escaped?_mark position rest⟩
  · rw [if_neg same]
    exact ⟨_, stringBody_plain same slash line position rest⟩

variable (quote)

theorem stringBody_escapeChars (chars : List Char) (position : Nat) (rest : List Char) :
    ∃ stop, stringBody quote.mark position (escapeChars quote.mark chars ++ quote.mark :: rest) =
      ⟨chars, true, [], stop, rest⟩ := by
  induction chars generalizing position with
  | nil =>
      rw [escapeChars, List.flatMap_nil, List.nil_append, stringBody_close]
      exact ⟨_, rfl⟩
  | cons char chars ih =>
      rw [escapeChars, List.flatMap_cons, List.append_assoc]
      obtain ⟨middle, here⟩ := stringBody_escapeChar char position
        (escapeChars quote.mark chars ++ quote.mark :: rest)
      obtain ⟨stop, later⟩ := ih middle
      rw [later] at here
      exact ⟨stop, here⟩

theorem front_string (value : String) : Front (stringText quote value) [.string value] := by
  intro rest later spelled
  rw [stringText, String.toList_ofList, List.cons_append, List.cons_append, List.append_assoc,
    List.singleton_append]
  refine spelled.lexeme (some (.string value)) fun start => ?_
  have scanned (behind : List Char) :
      scanVisible start quote.mark behind = scanString quote.mark start behind := by
    cases quote <;> rfl
  obtain ⟨stop, read⟩ :=
    stringBody_escapeChars quote value.toList (start + quote.mark.utf8Size) rest
  refine ⟨stop, ?_⟩
  rw [scanStep_visible (by cases quote <;> rfl) (by cases quote <;> decide), scanned, scanString,
    read]
  simp

theorem fragment_int {value : Int} (lexical : (TokenKind.int value).IsLexical) :
    Fragment (toString value) [.int value] := by
  obtain ⟨size, bound, rfl⟩ := lexical
  intro rest later parted spelled
  have text : (toString (Int.ofNat size)).toList = Nat.toDigits 10 size := Nat.toList_repr
  have read := spelled.integer parted (allDigits_toDigits size) Nat.toDigits_ne_nil
    (by rwa [digitsValue_toDigits])
  rwa [digitsValue_toDigits, ← text] at read

theorem fragment_float {value : Binary64} (lexical : (TokenKind.float value).IsLexical) :
    Fragment (String.ofList value.pointedText) [.float value] := by
  intro rest later parted spelled
  rw [String.toList_ofList, List.map_singleton, written]
  by_cases finite : value.isFinite = true
  · rw [if_pos finite]
    have read := spelled.decimal parted value.shortest.allDigits_wholeDigits
      value.shortest.wholeDigits_ne_nil value.shortest.allDigits_pointDigits
      value.shortest.pointDigits_ne_nil
    rw [Binary64.pointedText_eq lexical finite, List.append_assoc, List.cons_append]
    rwa [Binary64.pointedDigits_read lexical finite] at read
  · rw [if_neg finite, Binary64.pointedText_of_infinite lexical (eq_false_of_ne_true finite)]
    exact spelled.identifier parted.name isLexical_infinity

theorem fragment_bool (value : Bool) :
    Fragment (boolText value) [.keyword (if value then .trueWord else .falseWord)] := by
  cases value with
  | false => exact fragment_keyword .falseWord
  | true => exact fragment_keyword .trueWord

theorem argumentsText_eq (arguments : List Expr) :
    argumentsText quote arguments = ", ".intercalate (arguments.map (exprText quote)) := by
  have later (first : Expr) (rest : List Expr) :
      exprText quote first ++ laterArgumentsText quote rest =
        ", ".intercalate ((first :: rest).map (exprText quote)) := by
    induction rest generalizing first with
    | nil => simp [laterArgumentsText]
    | cons next rest ih =>
        rw [laterArgumentsText, String.append_assoc, ih]
        simp [String.append_assoc]
  cases arguments with
  | nil => rfl
  | cons first rest => rw [argumentsText, later]

end Layout

namespace Expr

theorem exists_kinds (expr : Expr) : ∃ kind rest, expr.kinds = kind :: rest ∧
    kind ≠ .operator .eq ∧ kind ≠ .operator .eqEq := by
  cases expr with
  | field span base name =>
      obtain ⟨kind, rest, same, other⟩ := base.exists_kinds
      rw [kinds, same]
      exact ⟨kind, _, rfl, other⟩
  | call span callee arguments =>
      obtain ⟨kind, rest, same, other⟩ := callee.exists_kinds
      rw [kinds, same]
      exact ⟨kind, _, rfl, other⟩
  | methodCall span receiver name arguments =>
      obtain ⟨kind, rest, same, other⟩ := receiver.exists_kinds
      rw [kinds, same]
      exact ⟨kind, _, rfl, other⟩
  | unary span op inside =>
      rw [kinds]
      exact ⟨_, _, rfl, by cases op <;> decide, by cases op <;> decide⟩
  | binary span left op right =>
      obtain ⟨kind, rest, same, other⟩ := left.exists_kinds
      rw [kinds, same]
      exact ⟨kind, _, rfl, other⟩
  | _ =>
      rw [kinds]
      exact ⟨_, _, rfl, by simp, by simp⟩

theorem unequated_kinds (expr : Expr) : Unequated expr.kinds := by
  obtain ⟨kind, rest, same, eq, eqEq⟩ := expr.exists_kinds
  rw [same]
  exact unequated_cons rest eq eqEq

variable (quote : Quote)

mutual

theorem fragment_text : (expr : Expr) → Lexical expr.kinds →
    Fragment (exprText quote expr) expr.kinds
  | .int _ _, lexical => by
      rw [kinds] at lexical ⊢
      rw [exprText]
      exact fragment_int lexical.head
  | .float _ _, lexical => by
      rw [kinds] at lexical ⊢
      rw [exprText]
      exact fragment_float lexical.head
  | .string _ value, _ => by
      rw [kinds, exprText]
      exact (front_string quote value).fragment
  | .bool _ value, _ => by
      rw [kinds, exprText]
      exact fragment_bool value
  | .null _, _ => by
      rw [kinds, exprText]
      exact fragment_keyword .nullWord
  | .ident _ _, lexical => by
      rw [kinds] at lexical ⊢
      rw [exprText]
      exact fragment_identifier lexical.head
  | .this _, _ => by
      rw [kinds, exprText]
      exact fragment_keyword .thisWord
  | .field _ base _, lexical => by
      rw [kinds] at lexical ⊢
      rw [exprText]
      exact (base.fragment_text lexical.left).point lexical.right.tail.head
  | .call _ callee arguments, lexical => by
      rw [kinds, kindsAll_eq_map] at lexical ⊢
      have each := fragment_all arguments fun argument inside =>
        lexical.right.parenthesized _ (List.mem_map_of_mem inside)
      rw [exprText, argumentsText_eq]
      exact (callee.fragment_text lexical.left).parenthesized (fragment_separated each)
  | .methodCall _ receiver name arguments, lexical => by
      rw [kinds, kindsAll_eq_map] at lexical ⊢
      have each := fragment_all arguments fun argument inside =>
        lexical.right.tail.tail.parenthesized _ (List.mem_map_of_mem inside)
      have called : Fragment (exprText quote receiver ++ "." ++ name)
          (receiver.kinds ++ [.punctuation .dot, .identifier name]) :=
        (receiver.fragment_text lexical.left).point lexical.right.tail.head
      rw [exprText, argumentsText_eq]
      simpa using called.parenthesized (fragment_separated each)
  | .unary _ op operand, lexical => by
      rw [kinds] at lexical ⊢
      rw [exprText]
      have inside := operand.fragment_text lexical.tail
      intro rest later parted spelled
      rw [String.toList_append, List.append_assoc]
      exact (inside rest later parted spelled).operator op.operator
        (unequal_of_fragment inside operand.unequated_kinds rest parted)
        (by cases op <;> nofun)
  | .binary _ left op right, lexical => by
      rw [kinds] at lexical ⊢
      rw [exprText]
      have sign : Front (op.operator.spelling ++ " ") [.operator op.operator] :=
        (fragment_operator op.operator).closed parts_space front_space
      have spaced : Front (" " ++ op.operator.spelling ++ " ") [.operator op.operator] := by
        rw [String.append_assoc]
        exact front_space.append sign
      have behind := (left.fragment_text lexical.left).before
        (fun rest _ => parts_space.append.append.append rest)
        (spaced.before (right.fragment_text lexical.right.tail))
      simpa [String.append_assoc] using behind
  | .paren _ inner, lexical => by
      rw [kinds] at lexical ⊢
      rw [exprText]
      have inside : Fragment (exprText quote inner) (separated [inner.kinds]) := by
        simpa [separated, afterCommas] using inner.fragment_text lexical.tail.left
      simpa [TokenKind.parenthesized, separated, afterCommas] using
        (front_parenthesized inside).fragment

theorem fragment_all : (exprs : List Expr) → (∀ expr ∈ exprs, Lexical expr.kinds) →
    ∀ expr ∈ exprs, Fragment (exprText quote expr) expr.kinds
  | [], _ => nofun
  | first :: rest, lexical => by
      obtain ⟨here, later⟩ := List.forall_mem_cons.mp lexical
      exact List.forall_mem_cons.mpr ⟨first.fragment_text here, fragment_all rest later⟩

end

end Expr

end DataClass
