import DataClass.Proofs.Layout.Expr
namespace DataClass

/-! The written forms of lines and statements. Every line ends where nothing behind it can make its
last token longer. -/

open Token TokenKind

namespace Layout

/-- The lines stand for tokens, wherever they are written and however far they are moved to the
right. -/
inductive LinesSpell : List Line → List TokenKind → Prop where
  | nil : LinesSpell [] []
  | cons {line : Line} {lines : List Line} {here later : List TokenKind}
      (front : Front (line.text ++ "\n") here) (behind : LinesSpell lines later) :
      LinesSpell (line :: lines) (here ++ later)

variable {lines more : List Line} {kinds others : List TokenKind} {head text : String}

theorem front_newline : Front "\n" [] := fun _ _ spelled => spelled.blank rfl

theorem parts_newline : Parts "\n" := parts_of_chars rfl rfl (by decide)

theorem LinesSpell.append (first : LinesSpell lines kinds) (second : LinesSpell more others) :
    LinesSpell (lines ++ more) (kinds ++ others) := by
  induction first with
  | nil => exact second
  | cons front _ ih =>
      rw [List.append_assoc]
      exact .cons front ih

theorem LinesSpell.indent (spelled : LinesSpell lines kinds) :
    LinesSpell (lines.map Line.indent) kinds := by
  induction spelled with
  | nil => exact .nil
  | cons front _ ih => exact .cons front ih

theorem linesSpell_plain (fragment : Fragment text kinds) : LinesSpell [.plain text] kinds := by
  have line : Front (text ++ "\n") (kinds ++ []) := fragment.closed parts_newline front_newline
  have single : LinesSpell [.plain text] ((kinds ++ []) ++ []) := .cons line .nil
  rwa [List.append_nil, List.append_nil] at single

theorem linesSpell_blanks (count : Nat) : LinesSpell (List.replicate count .blank) [] := by
  induction count with
  | zero => exact .nil
  | succ count ih =>
      have blank : Front (Line.blank.text ++ "\n") [] := front_empty.append front_newline
      exact .cons blank ih

theorem front_spaces (count : Nat) : Front (String.ofList (List.replicate count ' ')) [] := by
  intro rest later spelled
  rw [String.toList_ofList]
  exact spelled.spaces count

theorem front_render (width : Nat) {line : Line} (front : Front (line.text ++ "\n") kinds) :
    Front (line.render width) kinds := by
  unfold Line.render
  split
  · next empty =>
      have same : line.text = "" := by simpa using empty
      rw [same, String.empty_append] at front
      exact front
  · rw [String.append_assoc]
    exact (front_spaces _).append front

theorem LinesSpell.front (spelled : LinesSpell lines kinds) (width : Nat) :
    Front (Line.renderAll width lines) kinds := by
  induction spelled with
  | nil => exact front_empty
  | cons line _ ih =>
      rw [Line.renderAll, List.map_cons, String.join_cons]
      exact (front_render width line).append ih

theorem enclose_spells (front : Front head kinds) (body : LinesSpell lines others) :
    ∃ before last, kinds ++ braced others = before ++ last ∧
      LinesSpell (Line.enclose head lines).1 before ∧ Front (Line.enclose head lines).2 last := by
  have opened : Front "\x7b" [.punctuation .leftBrace] := front_punctuation .leftBrace
  have closed : Front "\x7d" [.punctuation .rightBrace] := front_punctuation .rightBrace
  unfold Line.enclose
  split
  · next empty =>
      obtain rfl : lines = [] := by simpa using empty
      obtain rfl : others = [] := by
        cases body
        rfl
      have braces := front.append (opened.append closed)
      exact ⟨[], _, rfl, .nil, braces⟩
  · refine ⟨(kinds ++ [.punctuation .leftBrace]) ++ others, [.punctuation .rightBrace], ?_, ?_,
      closed⟩
    · simp [braced]
    · exact (linesSpell_plain (front.append opened).fragment).append body.indent

theorem block_spells (front : Front head kinds) (body : LinesSpell lines others) :
    LinesSpell (Line.block head lines) (kinds ++ braced others) := by
  obtain ⟨before, last, same, first, second⟩ := enclose_spells front body
  rw [same]
  exact first.append (linesSpell_plain second.fragment)

theorem front_colon : Front ": " [.punctuation .colon] := by
  have front := (front_punctuation .colon).append front_space
  exact front

theorem parts_colon : Parts ": " :=
  show Parts (Punctuation.colon.spelling ++ " ") from (parts_punctuation .colon (by decide)).append

theorem front_semicolon : Front ";" [.punctuation .semicolon] := front_punctuation .semicolon

theorem parts_semicolon : Parts ";" := parts_punctuation .semicolon (by decide)

theorem front_word (word : Keyword) : Front (word.canonical ++ " ") [.keyword word] :=
  (fragment_keyword word).closed parts_space front_space

theorem fragment_typeSuffix {type : Option TypeRef} (lexical : Lexical (TypeRef.colonKinds type)) :
    Fragment (typeSuffix type) (TypeRef.colonKinds type) := by
  cases type with
  | none => exact front_empty.fragment
  | some type =>
      have typed := front_colon.before (type.fragment_text lexical.tail)
      exact typed

theorem parts_typeSuffix (type : Option TypeRef) (rest : List Char) (parted : Parted rest) :
    Parted ((typeSuffix type).toList ++ rest) := by
  cases type with
  | none => exact parted
  | some type => exact parts_colon.append rest

theorem front_equals : Front " = " [.operator .eq] := by
  have front := front_space.append ((fragment_operator .eq).closed parts_space front_space)
  exact front

theorem parts_equals : Parts " = " := show Parts (" " ++ "= ") from parts_space.append

variable (quote : Quote)

theorem fragment_valueSuffix {value : Option Expr} (lexical : Lexical (Expr.equalsKinds value)) :
    Fragment (valueSuffix quote value) (Expr.equalsKinds value) := by
  cases value with
  | none => exact front_empty.fragment
  | some value =>
      have valued := front_equals.before (value.fragment_text quote lexical.tail)
      exact valued

theorem parts_valueSuffix (value : Option Expr) (rest : List Char) (parted : Parted rest) :
    Parted ((valueSuffix quote value).toList ++ rest) := by
  cases value with
  | none => exact parted
  | some value => exact parts_equals.append rest

theorem front_declared {name : String} {type : Option TypeRef} {value : Option Expr}
    {last : List TokenKind}
    (lexical : Lexical (.identifier name ::
      (TypeRef.colonKinds type ++ (Expr.equalsKinds value ++ last)))) :
    Front (name ++ typeSuffix type ++ valueSuffix quote value ++ ";")
      (.identifier name ::
        (TypeRef.colonKinds type ++ (Expr.equalsKinds value ++ [.punctuation .semicolon]))) := by
  have named := fragment_identifier lexical.head
  have typed := named.before (parts_typeSuffix type) (fragment_typeSuffix lexical.tail.left)
  have valued := typed.before (parts_valueSuffix quote value)
    (fragment_valueSuffix quote lexical.tail.right.left)
  simpa using valued.closed parts_semicolon front_semicolon

theorem front_value {expr : Expr} {last : List TokenKind} (lexical : Lexical (expr.kinds ++ last)) :
    Front (exprText quote expr ++ ";") (expr.kinds ++ [.punctuation .semicolon]) :=
  (expr.fragment_text quote lexical.left).closed parts_semicolon front_semicolon

theorem front_tested (front : Front head kinds) (word : Front text others) {condition : Expr}
    {last : List TokenKind} (lexical : Lexical (condition.kinds ++ last)) :
    Front (head ++ text ++ exprText quote condition ++ " ")
      (kinds ++ (others ++ condition.kinds)) := by
  have tested := (front.append word).before (condition.fragment_text quote lexical.left)
  simpa using tested.closed parts_space front_space

end Layout

open Layout

namespace Stmt

variable (quote : Quote)

theorem front_if : Front "if " [.keyword .ifWord] := front_word .ifWord

theorem front_while : Front "while " [.keyword .whileWord] := front_word .whileWord

theorem front_else : Front " else " [.keyword .elseWord] := by
  have front := front_space.append (front_word .elseWord)
  exact front

theorem front_return : Front "return;" [.keyword .returnWord, .punctuation .semicolon] := by
  have front := (fragment_keyword .returnWord).closed parts_semicolon front_semicolon
  exact front

mutual

theorem lines_spell : (stmt : Stmt) → (head : String) → (front : List TokenKind) →
    Front head front → Lexical stmt.kinds →
    LinesSpell (stmtLines quote head stmt) (front ++ stmt.kinds)
  | .declare _ name type value, _, _, opened, lexical => by
      rw [kinds] at lexical ⊢
      rw [stmtLines]
      have word : Front "let " [.keyword .letWord] := front_word .letWord
      have line := (opened.append word).append (front_declared quote lexical.tail)
      exact linesSpell_plain (by simpa [String.append_assoc] using line.fragment)
  | .assign _ target value, _, _, opened, lexical => by
      rw [kinds] at lexical ⊢
      rw [stmtLines]
      have place := opened.before (target.fragment_text quote lexical.left)
      have given := front_equals.append (front_value quote lexical.right.tail)
      have line := place.closed parts_equals.append given
      exact linesSpell_plain (by simpa [String.append_assoc] using line.fragment)
  | .giveBack _ none, _, _, opened, _ => by
      rw [kinds, stmtLines]
      exact linesSpell_plain (opened.append front_return).fragment
  | .giveBack _ (some value), _, _, opened, lexical => by
      rw [kinds] at lexical ⊢
      rw [stmtLines]
      have word : Front "return " [.keyword .returnWord] := front_word .returnWord
      have line := (opened.append word).append (front_value quote lexical.tail)
      exact linesSpell_plain (by simpa [String.append_assoc, Expr.optionKinds] using line.fragment)
  | .choose _ condition thenBody none, _, _, opened, lexical => by
      rw [kinds] at lexical ⊢
      rw [stmtLines]
      have tested := front_tested quote opened front_if lexical.tail
      have body := body_spell thenBody lexical.tail.right.tail.left
      simpa using block_spells tested body
  | .choose _ condition thenBody (some elseBody), _, _, opened, lexical => by
      rw [kinds] at lexical ⊢
      rw [stmtLines]
      have tested := front_tested quote opened front_if lexical.tail
      have body := body_spell thenBody lexical.tail.right.left.tail.left
      obtain ⟨before, last, same, lines, closed⟩ := enclose_spells tested body
      have behind := else_spell elseBody _ _ (closed.append front_else) lexical.tail.right.right.tail
      have all := lines.append behind
      rw [← List.append_assoc, ← List.append_assoc, ← same] at all
      simpa using all
  | .repeatWhile _ condition body, _, _, opened, lexical => by
      rw [kinds] at lexical ⊢
      rw [stmtLines]
      have tested := front_tested quote opened front_while lexical.tail
      have body := body_spell body lexical.tail.right.tail.left
      simpa using block_spells tested body
  | .evaluate _ expr, _, _, opened, lexical => by
      rw [kinds] at lexical ⊢
      rw [stmtLines]
      have line := opened.append (front_value quote lexical)
      exact linesSpell_plain (by simpa [String.append_assoc] using line.fragment)

theorem body_spell : (body : List Stmt) → Lexical (bodyKinds body) →
    LinesSpell (bodyLines quote body) (bodyKinds body)
  | [], _ => .nil
  | stmt :: rest, lexical => by
      rw [bodyKinds] at lexical ⊢
      rw [bodyLines]
      have first := stmt.lines_spell _ _ front_empty lexical.left
      exact first.append (body_spell rest lexical.right)

theorem else_spell : (body : List Stmt) → (head : String) → (front : List TokenKind) →
    Front head front → Lexical (elseKinds body) →
    LinesSpell (elseLines quote head body) (front ++ elseKinds body)
  | [], _, _, opened, _ => by
      rw [elseKinds, elseLines]
      exact block_spells opened .nil
  | [only], _, _, opened, lexical => by
      rw [elseKinds] at lexical ⊢
      rw [elseLines]
      split
      · next choice =>
          rw [if_pos choice] at lexical
          exact only.lines_spell _ _ opened lexical
      · next choice =>
          rw [if_neg choice] at lexical
          exact block_spells opened (only.lines_spell _ _ front_empty lexical.tail.left)
  | first :: second :: rest, _, _, opened, lexical => by
      rw [elseKinds] at lexical ⊢
      rw [elseLines]
      have listed := lexical.tail.left
      have here := first.lines_spell _ _ front_empty listed.left
      have next := second.lines_spell _ _ front_empty listed.right.left
      exact block_spells opened
        (here.append (next.append (body_spell rest listed.right.right)))

end

end Stmt

end DataClass
