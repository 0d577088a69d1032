import DataClass.Proofs.Grammar.Unclosed
import DataClass.Proofs.Layout.RoundTrip
import DataClass.Proofs.Program.Parts
namespace DataClass

/-! Values written right behind their types.

The scanner takes the longest token there is, whatever it is read as later. So a `>` that closes type
arguments and an equals sign right behind it are one token, a comparison. Every other type ends with a
token that an equals sign does not make any longer. -/

open Token TokenKind Layout

namespace TypeRef

/-- The written form of a type can be read. -/
structure Writable (type : TypeRef) : Prop where
  shaped : type.Shaped
  lexical : Lexical type.kinds

/-- Whether the last token of a type is the `>` behind its arguments. -/
def closesArguments : TypeRef → Bool
  | .named _ _ (_ :: _) => true
  | .named _ _ [] | .array _ _ | .void _ => false

end TypeRef

namespace Token

variable {rest : List Char} {later : List TokenKind}

theorem isIdentifierRest_equals : ∀ char ∈ ('=' :: rest).head?, isIdentifierRest char = false := by
  rintro char ⟨⟩
  rfl

theorem spells_path_equals {path : List String} (lexical : Lexical (pathKinds path))
    (spelled : Spells ('=' :: rest) later) :
    Spells ((".".intercalate path).toList ++ '=' :: rest) ((pathKinds path).map written ++ later) := by
  induction path with
  | nil => exact spelled
  | cons first path ih =>
      cases path with
      | nil =>
          simpa [pathKinds, afterPoints, written] using
            spelled.identifier isIdentifierRest_equals lexical.head
      | cons second path =>
          have behind := (ih lexical.tail.tail).punctuation .dot
          have apart : ∀ char ∈ (Punctuation.dot.mark :: ((".".intercalate (second :: path)).toList ++
              '=' :: rest)).head?, isIdentifierRest char = false := by
            rintro char ⟨⟩
            rfl
          rw [String.intercalate_cons_cons]
          simpa [pathKinds, afterPoints_cons, written, Punctuation.mark] using
            behind.identifier apart lexical.head

/-- An equals sign makes no type any longer that does not close arguments. -/
theorem spells_type_equals {type : TypeRef} (lexical : Lexical type.kinds)
    (opened : type.closesArguments = false) (spelled : Spells ('=' :: rest) later) :
    Spells (type.text.toList ++ '=' :: rest) (type.kinds.map written ++ later) := by
  cases type with
  | named span path arguments =>
      cases arguments with
      | cons first others => cases opened
      | nil =>
          rw [TypeRef.kinds, TypeRef.kindsAll, angled, List.append_nil] at lexical ⊢
          rw [TypeRef.text]
          exact spells_path_equals lexical spelled
  | array span element =>
      rw [TypeRef.kinds] at lexical ⊢
      rw [TypeRef.text]
      have brackets : Front "[]" [.punctuation .leftBracket, .punctuation .rightBracket] :=
        (front_punctuation .leftBracket).append (front_punctuation .rightBracket)
      exact (element.fragment_text lexical.left).closed (parts_of_chars rfl rfl (by decide)) brackets
        _ _ spelled
  | void span =>
      rw [TypeRef.kinds, TypeRef.text]
      exact spelled.keyword isIdentifierRest_equals .voidWord

end Token

namespace TypeRef

open Grammar.Reader in
theorem kinds_unclosed (span : Span) (path : List String) {arguments : List TypeRef}
    (some : arguments ≠ []) :
    (named span path arguments).kinds = unclosedKinds path arguments ++ [.operator .gt] := by
  rw [kinds, kindsAll_eq_map, angled_of_some (by simpa using some), unclosedKinds, List.append_assoc,
    List.cons_append]

open Grammar.Reader in
/-- A type that closes its arguments, taken apart in front of the `>`. -/
theorem exists_unclosed {type : TypeRef} (writable : type.Writable)
    (closes : type.closesArguments = true) :
    ∃ path arguments text, path ≠ [] ∧ arguments ≠ [] ∧ (∀ argument ∈ arguments, argument.Shaped) ∧
      type.kinds = unclosedKinds path arguments ++ [.operator .gt] ∧ type.text = text ++ ">" ∧
      Fragment text (unclosedKinds path arguments) := by
  obtain ⟨shaped, lexical⟩ := writable
  cases shaped with
  | @named span path arguments segments inside =>
      have some : arguments ≠ [] := by
        rintro rfl
        cases closes
      obtain ⟨first, rest, rfl⟩ := List.exists_cons_of_ne_nil some
      have split := kinds_unclosed span path some
      rw [split, unclosedKinds] at lexical
      have each := fragment_all (first :: rest) fun type held =>
        lexical.left.right.tail.separated _ (List.mem_map_of_mem held)
      have listed := fragment_separated each
      have unequal := unequal_of_fragment listed
        (unequated_separated (List.forall_mem_map.mpr fun type _ => type.unequated_kinds))
      have angle : Parts "<" := parts_of_chars rfl rfl (by decide)
      have opened : Fragment ("<" ++ ", ".intercalate ((first :: rest).map text))
          (.operator .lt :: separated ((first :: rest).map kinds)) := by
        intro chars later parted spelled
        rw [String.toList_append, List.append_assoc]
        exact (listed chars later parted spelled).operator .lt (unequal chars parted) (by simp)
      refine ⟨path, first :: rest, _, segments, some, inside, split, ?_,
        (fragment_path lexical.left.left).before (fun chars _ => angle.append chars) opened⟩
      rw [text_named]
      simp only [String.append_assoc]
  | _ => cases closes

/-- The `>` behind type arguments and an equals sign right behind it are read as one token. -/
theorem spells_merged {type : TypeRef} (writable : type.Writable)
    (closes : type.closesArguments = true) {rest : List Char} {later : List TokenKind}
    (unequal : rest.head? ≠ some '=') (spelled : Spells rest later) :
    Spells (type.text.toList ++ '=' :: rest) (type.kinds.dropLast ++ .operator .gtEq :: later) := by
  obtain ⟨path, arguments, text, _, _, _, kinds, spelling, fragment⟩ := exists_unclosed writable closes
  have merged : Spells ('>' :: '=' :: rest) (.operator .gtEq :: later) :=
    spelled.operator .gtEq unequal (by simp)
  have same := type.kinds_written
  rw [kinds, List.map_append] at same
  have all := fragment _ _ (parted_cons _ rfl (by decide)) merged
  rw [List.append_inj_left' same rfl] at all
  simpa [spelling, kinds] using all

end TypeRef

/-- What is declared with a type and a value. -/
inductive Holder where
  | classField
  | functionVariable

/-- A program with one field of one class in it, or with one variable of one function, and with
nothing else. -/
structure Initialization where
  holder : Holder
  /-- The name of the class or of the function. -/
  outer : String
  name : String
  type : TypeRef
  value : Expr

namespace Initialization

structure Writable (decl : Initialization) : Prop where
  outer : (TokenKind.identifier decl.outer).IsLexical
  named : (TokenKind.identifier decl.name).IsLexical
  typed : decl.type.Writable
  valued : decl.value.Writable

variable (decl : Initialization)

/-- The text in front of the type. -/
def head : String :=
  match decl.holder with
  | .classField => "class " ++ decl.outer ++ " \x7b" ++ decl.name ++ ":"
  | .functionVariable => "fn " ++ decl.outer ++ "() \x7blet " ++ decl.name ++ ":"

/-- The text of the program, with the equals sign written in some way. -/
def text (quote : Quote) (equals : String) : String :=
  decl.head ++ decl.type.text ++ equals ++ (exprText quote decl.value ++ ";\x7d")

def program : Program :=
  match decl.holder with
  | .classField => ⟨[.type .origin ⟨[], false, decl.outer,
      [.field .origin ⟨[], false, decl.name, some decl.type, some decl.value⟩]⟩]⟩
  | .functionVariable => ⟨[.function .origin ⟨[], false, decl.outer, [], .void .origin,
      [.declare .origin decl.name (some decl.type) (some decl.value)]⟩]⟩

/-- The tokens in front of the body. -/
def openingKinds : List TokenKind :=
  match decl.holder with
  | .classField => [.keyword .classWord, .identifier decl.outer, .punctuation .leftBrace]
  | .functionVariable => [.keyword .fnWord, .identifier decl.outer, .punctuation .leftParen,
      .punctuation .rightParen, .punctuation .leftBrace]

/-- The tokens in the body in front of the type. -/
def leadKinds : List TokenKind :=
  match decl.holder with
  | .classField => [.identifier decl.name, .punctuation .colon]
  | .functionVariable => [.keyword .letWord, .identifier decl.name, .punctuation .colon]

/-- The tokens behind the equals sign, as they are read. -/
def valueKinds : List TokenKind :=
  decl.value.kinds.map written ++ [.punctuation .semicolon, .punctuation .rightBrace]

variable {decl}

theorem kinds_program : decl.program.kinds.map written =
    decl.openingKinds ++ (decl.leadKinds ++
      (decl.type.kinds ++ .operator .eq :: decl.valueKinds)) := by
  obtain ⟨_ | _, outer, name, type, value⟩ := decl <;>
  simp [program, openingKinds, leadKinds, valueKinds, Program.kinds, Declaration.kinds, Class.kinds,
    Member.kindsAll, Member.kinds, Field.bareKinds, Method.bareKinds, Stmt.bodyKinds, Stmt.kinds,
    TypeRef.colonKinds, Expr.equalsKinds, TypeRef.returnKinds, TypeRef.isVoid, modifiers, visibility,
    Tag.kindsAll, braced, parenthesized, separated, written, type.kinds_written]

theorem shaped_program (writable : decl.Writable) : decl.program.Shaped := by
  obtain ⟨holder, outer, name, type, value⟩ := decl
  have typed : ∀ found ∈ some type, found.Shaped := by
    rintro found ⟨⟩
    exact writable.typed.shaped
  have valued : ∀ found ∈ some value, found.Shaped := by
    rintro found ⟨⟩
    exact writable.valued.shaped
  cases holder with
  | classField =>
      refine List.forall_mem_singleton.mpr (Class.Shaped.mk nofun (List.forall_mem_singleton.mpr ?_))
      exact .field .origin ⟨nofun, typed, valued⟩
  | functionVariable =>
      refine List.forall_mem_singleton.mpr (Method.Shaped.mk nofun nofun (.void .origin) ?_)
      exact List.forall_mem_singleton.mpr (.declare .origin name typed valued)

/-! ### The tokens of the text -/

theorem front_head (writable : decl.Writable) :
    Front decl.head (decl.openingKinds ++ decl.leadKinds) := by
  obtain ⟨holder, outer, name, type, value⟩ := decl
  have opened : Front " \x7b" [.punctuation .leftBrace] :=
    front_space.append (front_punctuation .leftBrace)
  have parted : Parts " \x7b" := parts_of_chars rfl rfl (by decide)
  have colon : Front ":" [.punctuation .colon] := front_punctuation .colon
  have before : Parts ":" := parts_punctuation .colon (by decide)
  have named : Front (name ++ ":") [.identifier name, .punctuation .colon] :=
    (fragment_identifier writable.named).closed before colon
  cases holder with
  | classField =>
      have word : Front "class " [.keyword .classWord] := front_word .classWord
      have outside := (word.before (fragment_identifier writable.outer)).closed parted opened
      simpa [head, openingKinds, leadKinds, String.append_assoc] using outside.append named
  | functionVariable =>
      have word : Front "fn " [.keyword .fnWord] := front_word .fnWord
      have parens : Front "()" [.punctuation .leftParen, .punctuation .rightParen] :=
        (front_punctuation .leftParen).append (front_punctuation .rightParen)
      have declares : Front "let " [.keyword .letWord] := front_word .letWord
      have body : Front "() \x7blet " [.punctuation .leftParen, .punctuation .rightParen,
          .punctuation .leftBrace, .keyword .letWord] := parens.append (opened.append declares)
      have opens : Parts "() \x7blet " := parts_of_chars rfl rfl (by decide)
      have outside := (word.before (fragment_identifier writable.outer)).closed opens body
      simpa [head, openingKinds, leadKinds, String.append_assoc] using outside.append named

theorem spells_value (writable : decl.Writable) (quote : Quote) :
    Spells (exprText quote decl.value ++ ";\x7d").toList (decl.valueKinds ++ [.endOfFile]) ∧
      (exprText quote decl.value ++ ";\x7d").toList.head? ≠ some '=' := by
  have fragment := decl.value.fragment_text quote writable.valued.lexical
  have semicolon : Front ";\x7d" [.punctuation .semicolon, .punctuation .rightBrace] :=
    front_semicolon.append (front_punctuation .rightBrace)
  have parted : Parts ";\x7d" := parts_of_chars rfl rfl (by decide)
  constructor
  · have spelled := fragment.closed parted semicolon [] [.endOfFile] spells_nil
    simpa [valueKinds, written] using spelled
  · have unequal := unequal_of_fragment fragment decl.value.unequated_kinds
    rw [String.toList_append]
    exact unequal _ (by simpa using parted [])

theorem spells_text (writable : decl.Writable) (quote : Quote) {equals : String}
    {kinds : List TokenKind}
    (spelled : Spells (decl.type.text.toList ++ (equals.toList ++
      (exprText quote decl.value ++ ";\x7d").toList)) kinds) :
    Spells (decl.text quote equals).toList (decl.openingKinds ++ (decl.leadKinds ++ kinds)) := by
  have whole := front_head writable _ _ spelled
  have same : (decl.openingKinds ++ decl.leadKinds).map written =
      decl.openingKinds ++ decl.leadKinds := by
    obtain ⟨_ | _, outer, name, type, value⟩ := decl <;> rfl
  rw [same] at whole
  simpa [text] using whole

/-- Between spaces the equals sign is a token of its own, behind every type. -/
theorem spells_spaced (writable : decl.Writable) (quote : Quote) :
    Spells (decl.text quote " = ").toList (decl.program.kinds.map written ++ [.endOfFile]) := by
  have equals := front_equals _ _ (spells_value writable quote).1
  have parted : Parts " = " := parts_of_chars rfl rfl (by decide)
  have typed := decl.type.fragment_text writable.typed.lexical _ _ (parted _) equals
  rw [decl.type.kinds_written] at typed
  rw [kinds_program]
  simpa [written] using spells_text writable quote typed

/-- Without spaces it is so behind a type that does not close arguments. -/
theorem spells_tight (writable : decl.Writable) (opened : decl.type.closesArguments = false)
    (quote : Quote) :
    Spells (decl.text quote "=").toList (decl.program.kinds.map written ++ [.endOfFile]) := by
  obtain ⟨value, unequal⟩ := spells_value writable quote
  have equals := value.operator .eq unequal (by simp)
  have typed := spells_type_equals writable.typed.lexical opened equals
  rw [decl.type.kinds_written] at typed
  have whole : Spells (decl.text quote "=").toList _ := spells_text writable quote typed
  rw [kinds_program]
  simpa using whole

/-- Behind a type that closes arguments it is the end of a comparison. -/
theorem spells_comparison (writable : decl.Writable) (closes : decl.type.closesArguments = true)
    (quote : Quote) :
    Spells (decl.text quote "=").toList (decl.openingKinds ++ (decl.leadKinds ++
      (decl.type.kinds.dropLast ++ .operator .gtEq :: (decl.valueKinds ++ [.endOfFile])))) := by
  obtain ⟨value, unequal⟩ := spells_value writable quote
  exact spells_text writable quote (TypeRef.spells_merged writable.typed closes unequal value)

theorem exists_read_of_spells (writable : decl.Writable) {source : String}
    (spelled : Spells source.toList (decl.program.kinds.map written ++ [.endOfFile])) :
    ∃ program, Program.ofSource source = .ok program ∧
      program.erase = decl.program.spelled.erase := by
  obtain ⟨tokens, scanned, kinds⟩ := scan_of_spells spelled
  rw [← Program.kinds_spelled] at kinds
  obtain ⟨program, read, same⟩ :=
    Program.ofTokens_of_kinds (shaped_program writable).spelled kinds
  exact ⟨program, by simp [Program.ofSource, scanned, read, bind, Except.bind], same⟩

open Grammar Grammar.Reader in
/-- The comparison is refused, and nothing else is wrong. -/
theorem ofTokens_comparison (writable : decl.Writable) (closes : decl.type.closesArguments = true)
    {tokens : List Token}
    (kinds : tokens.map Token.kind = decl.openingKinds ++ (decl.leadKinds ++
      (decl.type.kinds.dropLast ++ .operator .gtEq :: (decl.valueKinds ++ [.endOfFile])))) :
    ∃ before here after, tokens = before ++ here :: after ∧
      before.map Token.kind = decl.openingKinds ++ (decl.leadKinds ++ decl.type.kinds.dropLast) ∧
      here.kind = .operator .gtEq ∧
      Program.ofTokens tokens = .error [missing closingAngle here] := by
  obtain ⟨path, arguments, _, segments, some, shaped, typed, _⟩ :=
    TypeRef.exists_unclosed writable.typed closes
  rw [typed, List.dropLast_concat] at kinds ⊢
  obtain ⟨opening, inside, rfl, opens, body⟩ := List.map_eq_append_iff.mp kinds
  rw [← List.append_assoc] at body
  obtain ⟨before, later, rfl, lead, back⟩ := List.map_eq_append_iff.mp body
  obtain ⟨here, after, rfl, comparison, valued⟩ := List.map_eq_cons_iff.mp back
  rw [valueKinds, List.append_assoc] at valued
  obtain ⟨behind, ending, rfl, value, marks⟩ := List.map_eq_append_iff.mp valued
  simp only [List.cons_append, List.nil_append, List.map_eq_cons_iff, List.map_eq_nil_iff] at marks
  obtain ⟨semicolon, _, rfl, ends, closing, _, rfl, brace, finish, _, rfl, last, rfl⟩ := marks
  refine ⟨opening ++ before, here, behind ++ [semicolon, closing, finish], by simp, ?_, comparison, ?_⟩
  · rw [List.map_append, opens, lead]
  have inline : ∀ token ∈ behind, token.kind.isInline = true := by
    rw [← Expr.kinds_spelled] at value
    have all := decl.value.spelled.isInline_kinds
    rw [← value, List.all_map, List.all_eq_true] at all
    exact all
  have run : opening ++ (before ++ here :: (behind ++ [semicolon, closing, finish])) =
      opening ++ (before ++ here :: (behind ++ [semicolon]) ++ [] ++ [closing]) ++ [finish] := by simp
  have recovers : Recovers (.body .declaration)
      (opening ++ (before ++ here :: (behind ++ [semicolon]) ++ [] ++ [closing]))
      [missing closingAngle here] := by
    obtain ⟨holder, outer, name, type, value⟩ := decl
    cases holder with
    | classField =>
        have skipped := skipped_unclosed (.field name) segments some shaped lead comparison inline
          ends
        have body := recovers_skipped skipped (recovers_nothing .member)
        exact recovers_onlyClass opens body brace
    | functionVariable =>
        have skipped := skipped_unclosed (.binding name) segments some shaped lead comparison inline
          ends
        have body := recovers_skipped skipped (recovers_nothing .statement)
        exact recovers_onlyFunction opens body brace
  rw [run]
  exact (Program.ofTokens_of_recovers recovers last).2 (by simp)

open Grammar Grammar.Reader in
/-- The token that the scanner makes of the `>` and the equals sign is the only one reported. -/
theorem ofSource_comparison (writable : decl.Writable) (closes : decl.type.closesArguments = true)
    (quote : Quote) :
    ∃ before here after, scan (decl.text quote "=") = .ok (before ++ here :: after) ∧
      before.map Token.kind = decl.openingKinds ++ (decl.leadKinds ++ decl.type.kinds.dropLast) ∧
      here.kind = .operator .gtEq ∧
      Program.ofSource (decl.text quote "=") = .error
        [.syntaxFault "Expected '>' to close type arguments, found '>='" here.span] := by
  obtain ⟨tokens, scanned, kinds⟩ := scan_of_spells (spells_comparison writable closes quote)
  obtain ⟨before, here, after, rfl, front, comparison, refused⟩ :=
    ofTokens_comparison writable closes kinds
  refine ⟨before, here, after, scanned, front, comparison, ?_⟩
  rw [missing, comparison] at refused
  simp only [Program.ofSource, scanned, bind, Except.bind]
  exact refused

/-- Whether the spaces around an equals sign can be left out depends on the type in front of it, and
on nothing else. With them every field and every variable is read as the one that has been written.
Without them the same is read, up to places, just if the type does not end with the `>` of its
arguments. If it does, this `>` and the equals sign are one token, which is refused in the place of the
`>`, and nothing else is reported. -/
theorem ofSource_tight (writable : decl.Writable) (quote : Quote) :
    ∃ spaced, Program.ofSource (decl.text quote " = ") = .ok spaced ∧
      spaced.erase = decl.program.spelled.erase ∧
      ((∃ tight, Program.ofSource (decl.text quote "=") = .ok tight ∧ tight.erase = spaced.erase) ↔
        decl.type.closesArguments = false) ∧
      (decl.type.closesArguments = true →
        ∃ before here after, scan (decl.text quote "=") = .ok (before ++ here :: after) ∧
          before.map Token.kind =
            decl.openingKinds ++ (decl.leadKinds ++ decl.type.kinds.dropLast) ∧
          here.kind = .operator .gtEq ∧
          Program.ofSource (decl.text quote "=") = .error
            [.syntaxFault "Expected '>' to close type arguments, found '>='" here.span]) := by
  obtain ⟨spaced, read, same⟩ := exists_read_of_spells writable (spells_spaced writable quote)
  refine ⟨spaced, read, same, ⟨fun ⟨tight, again, _⟩ => ?_, fun opened => ?_⟩,
    fun closes => ofSource_comparison writable closes quote⟩
  · refine Bool.eq_false_iff.mpr fun closes => ?_
    obtain ⟨_, _, _, _, _, _, refused⟩ := ofSource_comparison writable closes quote
    rw [again] at refused
    cases refused
  · obtain ⟨tight, again, equal⟩ :=
      exists_read_of_spells writable (spells_tight writable opened quote)
    exact ⟨tight, again, equal.trans same.symm⟩

/-- The same type arguments, as the elements of an array and alone. -/
theorem ofSource_tight_list :
    (∃ spaced tight, Program.ofSource "class A \x7bx:List<Int>[] = y;\x7d" = .ok spaced ∧
      Program.ofSource "class A \x7bx:List<Int>[]=y;\x7d" = .ok tight ∧ tight.erase = spaced.erase) ∧
    ∃ spaced span, Program.ofSource "fn f() \x7blet x:List<Int> = y;\x7d" = .ok spaced ∧
      Program.ofSource "fn f() \x7blet x:List<Int>=y;\x7d" = .error
        [.syntaxFault "Expected '>' to close type arguments, found '>='" span] := by
  have isName (text : String) (valid : isIdentifier text = true ∧ Keyword.ofSpelling? text = none) :
      (TokenKind.identifier text).IsLexical := valid
  have writable (holder : Holder) (outer : String) (type : TypeRef) (shaped : type.Shaped)
      (lexical : Lexical type.kinds) (named : (TokenKind.identifier outer).IsLexical) :
      (⟨holder, outer, "x", type, .ident .origin "y"⟩ : Initialization).Writable :=
    ⟨named, isName "x" (by decide), ⟨shaped, lexical⟩, .ident .origin "y", by
      simpa [Expr.kinds] using isName "y" (by decide)⟩
  let list : TypeRef := .named .origin ["List"] [.named .origin ["Int"] []]
  have shaped : list.Shaped :=
    .named .origin (by simp) (by simpa using TypeRef.Shaped.named .origin (by simp) (by simp))
  have lexical : Lexical list.kinds := by
    simp [list, TypeRef.kinds, TypeRef.kindsAll, pathKinds, afterPoints, angled, separated, afterCommas,
      isName "List" (by decide), isName "Int" (by decide)]
  constructor
  · have inArray : Lexical (TypeRef.array .origin list).kinds := by
      simpa [TypeRef.kinds] using lexical
    obtain ⟨spaced, read, _, tight, _⟩ := ofSource_tight (writable .classField "A" _
      (.array .origin rfl shaped) inArray (isName "A" (by decide))) .double
    obtain ⟨again, readAgain, same⟩ := tight.mpr rfl
    exact ⟨spaced, again, read, readAgain, same⟩
  · obtain ⟨spaced, read, _, _, merged⟩ := ofSource_tight (writable .functionVariable "f" _ shaped
      lexical (isName "f" (by decide))) .double
    obtain ⟨_, here, _, _, _, _, refused⟩ := merged rfl
    exact ⟨spaced, here.span, read, refused⟩

end Initialization

end DataClass
