import DataClass.Proofs.Number.Decimals
import DataClass.Token.Scan
namespace DataClass

/-! Which texts are cut into which tokens. A text is put together from its end: each lemma says what
a word, a number or a sign in front of a text adds to the tokens of that text. -/

namespace TokenKind

/-- What the scanner can find: names that are not reserved, integers of 64 bits, and numbers
without a sign. -/
def IsLexical : TokenKind → Prop
  | .identifier name => isIdentifier name = true ∧ Keyword.ofSpelling? name = none
  | .int value => ∃ size ≤ Token.largestInteger, value = Int.ofNat size
  | .float value => value.IsLiteral
  | _ => True

/-- The token that is read where this one has been written. Infinity comes back as a name. -/
def written : TokenKind → TokenKind
  | .float value => if value.isFinite then .float value else .identifier "inf"
  | kind => kind

theorem isLexical_infinity : (TokenKind.identifier "inf").IsLexical := by
  constructor <;> decide

theorem written_isLexical {kind : TokenKind} (lexical : kind.IsLexical) :
    kind.written.IsLexical := by
  cases kind with
  | float value =>
      by_cases finite : value.isFinite = true
      · simpa [written, finite] using lexical
      · simpa [written, finite] using isLexical_infinity
  | _ => exact lexical

end TokenKind

namespace Token

/-- The text is cut into tokens of these kinds, and nothing is wrong with it, wherever it stands. -/
def Spells (chars : List Char) (kinds : List TokenKind) : Prop :=
  ∀ position, ∃ tokens, scanFrom position chars = (tokens, []) ∧ tokens.map Token.kind = kinds

/-- A text that makes no name, number or operator in front of it any longer, and no comment of it. -/
structure Parted (rest : List Char) : Prop where
  name : ∀ char ∈ rest.head?, isIdentifierRest char = false
  sign : ∀ char ∈ rest.head?, char ∉ ['=', '/', '*']
  number : fraction? rest = none

theorem parted_cons {char : Char} (rest : List Char) (name : isIdentifierRest char = false)
    (sign : char ∉ ['=', '/', '*', '.']) : Parted (char :: rest) := by
  simp only [List.mem_cons, List.not_mem_nil, or_false, not_or] at sign
  refine ⟨by simpa using name, by simp [sign], ?_⟩
  simp [fraction?, sign]

theorem isIdentifierStart_ne {char : Char} (start : isIdentifierStart char = true) (mark : Char)
    (other : isIdentifierStart mark = false) : char ≠ mark := by
  rintro rfl
  rw [start] at other
  cases other

theorem isDigit_of_start {char : Char} (start : isIdentifierStart char = true) :
    char.isDigit = false := by
  delta isIdentifierStart Char.isAlpha Char.isUpper Char.isLower at start
  simp only [Bool.or_eq_true, Bool.and_eq_true, decide_eq_true_eq, beq_iff_eq] at start
  simp only [Char.isDigit, Bool.and_eq_false_imp, decide_eq_true_eq, decide_eq_false_iff_not,
    ge_iff_le]
  intro _ upper
  have bound : char.val ≤ 57 := upper
  rcases start with (⟨low, _⟩ | ⟨low, _⟩) | rfl
  · exact absurd (UInt32.le_trans low bound) (by decide)
  · exact absurd (UInt32.le_trans low bound) (by decide)
  · exact absurd bound (by decide)

theorem exists_chars_of_isIdentifier {name : String} (valid : isIdentifier name = true) :
    ∃ first rest, name.toList = first :: rest ∧ isIdentifierStart first = true ∧
      ∀ char ∈ rest, isIdentifierRest char = true := by
  unfold isIdentifier at valid
  cases chars : name.toList with
  | nil => simp [chars, isIdentifierChars] at valid
  | cons first rest =>
      simp only [chars, isIdentifierChars, Bool.and_eq_true, List.all_eq_true] at valid
      exact ⟨first, rest, rfl, valid.1, valid.2⟩

theorem parted_point {name : String} (valid : isIdentifier name = true) (rest : List Char) :
    Parted ('.' :: (name.toList ++ rest)) := by
  obtain ⟨first, others, chars, start, _⟩ := exists_chars_of_isIdentifier valid
  have apart : isIdentifierRest '.' = false := by decide
  refine ⟨by simp [apart], by simp, ?_⟩
  simp [chars, fraction?, isDigit_of_start start]

theorem spells_nil : Spells [] [.endOfFile] := fun position =>
  ⟨[⟨.endOfFile, ⟨position, position⟩⟩], by rw [scanFrom], rfl⟩

theorem Spells.lexeme {char : Char} {rest later : List Char} {kinds : List TokenKind}
    (spelled : Spells later kinds) (token : Option TokenKind)
    (step : ∀ start, ∃ stop, scanStep start char rest = ⟨token, [], stop, later⟩) :
    Spells (char :: rest) (token.toList ++ kinds) := by
  intro position
  obtain ⟨stop, taken⟩ := step position
  obtain ⟨tokens, read, same⟩ := spelled stop
  refine ⟨(token.map fun kind => ⟨kind, ⟨position, stop⟩⟩).toList ++ tokens, ?_, ?_⟩
  · rw [scanFrom, taken]
    simp [Lexeme.tokens, read]
  · cases token <;> simp [same]

theorem Spells.blank {rest : List Char} {kinds : List TokenKind} (spelled : Spells rest kinds)
    {char : Char} (blank : isBlank char = true) : Spells (char :: rest) kinds :=
  spelled.lexeme none fun start => ⟨start + 1, by
    simp [scanStep, blank, Lexeme.skipped]⟩

theorem Spells.space {rest : List Char} {kinds : List TokenKind} (spelled : Spells rest kinds) :
    Spells (' ' :: rest) kinds := spelled.blank rfl

theorem Spells.spaces {rest : List Char} {kinds : List TokenKind} (spelled : Spells rest kinds)
    (count : Nat) : Spells (List.replicate count ' ' ++ rest) kinds := by
  induction count with
  | zero => exact spelled
  | succ count ih => exact ih.space

theorem scanStep_visible {char : Char} {rest : List Char} (visible : isBlank char = false)
    (mark : char ≠ '/') (start : Nat) : scanStep start char rest = scanVisible start char rest := by
  unfold scanStep
  rw [visible]
  simp only [Bool.false_eq_true, if_false]
  split
  · exact absurd rfl mark
  · exact absurd rfl mark
  · rfl

theorem Spells.punctuation {rest : List Char} {kinds : List TokenKind}
    (spelled : Spells rest kinds) (mark : Punctuation) :
    Spells (mark.mark :: rest) (.punctuation mark :: kinds) :=
  spelled.lexeme (some (.punctuation mark)) fun start => ⟨start + 1, by
    cases mark <;> rfl⟩

/-- An operator, where the text behind it does not turn it into another one or into a comment. -/
theorem Spells.operator {rest : List Char} {kinds : List TokenKind} (spelled : Spells rest kinds)
    (sign : Operator) (equals : rest.head? ≠ some '=')
    (comment : sign = .slash → rest.head? ≠ some '/' ∧ rest.head? ≠ some '*') :
    Spells (sign.spelling.toList ++ rest) (.operator sign :: kinds) := by
  have single {char : Char} (visible : isBlank char = false) (mark : char ≠ '/')
      (found : operatorAt? char rest.head? = some (sign, false)) :
      Spells (char :: rest) (.operator sign :: kinds) :=
    spelled.lexeme (some (.operator sign)) fun start => ⟨start + 1, by
      rw [scanStep_visible visible mark, scanVisible, found]
      rfl⟩
  have double {first second : Char} (visible : isBlank first = false) (mark : first ≠ '/')
      (found : operatorAt? first (some second) = some (sign, true)) :
      Spells (first :: second :: rest) (.operator sign :: kinds) :=
    spelled.lexeme (some (.operator sign)) fun start => ⟨start + 2, by
      rw [scanStep_visible visible mark, scanVisible, List.head?_cons, found]
      rfl⟩
  have slash (line : rest.head? ≠ some '/') (block : rest.head? ≠ some '*') :
      Spells ('/' :: rest) (.operator .slash :: kinds) :=
    spelled.lexeme (some (.operator .slash)) fun start => ⟨start + 1, by
      unfold scanStep
      simp only [show isBlank '/' = false from rfl, Bool.false_eq_true, if_false]
      split
      · simp at line
      · simp at block
      · rfl⟩
  cases sign with
  | slash => exact slash (comment rfl).1 (comment rfl).2
  | orOr | andAnd | eqEq | notEq | ltEq | gtEq => exact double (by decide) (by decide) rfl
  | lt | gt | bang | eq => exact single (by decide) (by decide) (congrArg some (if_neg equals))
  | plus | minus | star | percent => exact single (by decide) (by decide) rfl

theorem takeWhile_append {accept : Char → Bool} {word rest : List Char}
    (all : ∀ char ∈ word, accept char = true) (stop : ∀ char ∈ rest.head?, accept char = false) :
    (word ++ rest).takeWhile accept = word ∧ (word ++ rest).dropWhile accept = rest := by
  rw [List.takeWhile_append_of_pos all, List.dropWhile_append_of_pos all]
  cases rest with
  | nil => simp
  | cons char rest => simp [stop char rfl]

theorem Spells.word {rest : List Char} {kinds : List TokenKind} (spelled : Spells rest kinds)
    (parted : ∀ char ∈ rest.head?, isIdentifierRest char = false) {name : String}
    (valid : isIdentifier name = true) :
    Spells (name.toList ++ rest) (wordKind name :: kinds) := by
  obtain ⟨first, others, chars, start, later⟩ := exists_chars_of_isIdentifier valid
  have all : ∀ char ∈ name.toList, isIdentifierRest char = true := by
    rw [chars]
    intro char inside
    rcases List.mem_cons.mp inside with rfl | inside
    · exact isIdentifierRest_of_start start
    · exact later char inside
  have split := takeWhile_append all parted
  have visible : isBlank first = false := by
    simp [isBlank, isIdentifierStart_ne start ' ' rfl, isIdentifierStart_ne start '\t' rfl,
      isIdentifierStart_ne start '\r' rfl, isIdentifierStart_ne start '\n' rfl]
  rw [chars, List.cons_append] at split ⊢
  refine spelled.lexeme (some (wordKind name)) fun start' =>
    ⟨start' + byteCount name.toList, ?_⟩
  have sign (next : Option Char) : operatorAt? first next = none := by
    unfold operatorAt?
    split <;> first | rfl | exact absurd start (by decide)
  have mark : Punctuation.ofMark? first = none := by
    cases found : Punctuation.ofMark? first with
    | none => rfl
    | some mark =>
        have same := List.find?_some found
        obtain rfl : mark.mark = first := by simpa using same
        cases mark <;> exact absurd start (by decide)
  rw [scanStep_visible visible (isIdentifierStart_ne start '/' rfl), scanVisible, sign, mark]
  have double := isIdentifierStart_ne start '"' rfl
  have single := isIdentifierStart_ne start '\'' rfl
  simp [double, single, isDigit_of_start start, start, scanWord, split, Lexeme.found, ← chars]

theorem wordKind_canonical (word : Keyword) : wordKind word.canonical = .keyword word := by
  cases word <;> decide

theorem isIdentifier_canonical (word : Keyword) : isIdentifier word.canonical = true := by
  cases word <;> decide

theorem Spells.keyword {rest : List Char} {kinds : List TokenKind} (spelled : Spells rest kinds)
    (parted : ∀ char ∈ rest.head?, isIdentifierRest char = false) (word : Keyword) :
    Spells (word.canonical.toList ++ rest) (.keyword word :: kinds) := by
  rw [← wordKind_canonical word]
  exact spelled.word parted (isIdentifier_canonical word)

theorem Spells.identifier {rest : List Char} {kinds : List TokenKind} (spelled : Spells rest kinds)
    (parted : ∀ char ∈ rest.head?, isIdentifierRest char = false) {name : String}
    (lexical : (TokenKind.identifier name).IsLexical) :
    Spells (name.toList ++ rest) (.identifier name :: kinds) := by
  have kind : wordKind name = .identifier name := by rw [wordKind, lexical.2]
  rw [← kind]
  exact spelled.word parted lexical.1

theorem isNumeral_of_isDigit {char : Char} (digit : char.isDigit = true) :
    isNumeral char = true := by
  simp [isNumeral, digit]

theorem isNumeral_of_parted {rest : List Char}
    (parted : ∀ char ∈ rest.head?, isIdentifierRest char = false) :
    ∀ char ∈ rest.head?, isNumeral char = false := by
  intro char head
  have later := parted char head
  simp only [isIdentifierRest, Char.isAlphanum, Bool.or_eq_false_iff] at later
  simp [isNumeral, later.1.2, later.2]

theorem withoutUnderscores_of_allDigits {digits : List Char} (all : AllDigits digits) :
    withoutUnderscores digits = digits := by
  refine List.filter_eq_self.mpr fun char inside => ?_
  have digit := all char inside
  simp only [bne_iff_ne, ne_eq]
  rintro rfl
  cases digit

theorem numerals_append {digits rest : List Char} (all : AllDigits digits)
    (stop : ∀ char ∈ rest.head?, isNumeral char = false) :
    (digits ++ rest).takeWhile isNumeral = digits ∧ (digits ++ rest).dropWhile isNumeral = rest :=
  takeWhile_append (fun char inside => isNumeral_of_isDigit (all char inside)) stop

theorem scanStep_digit {char : Char} {rest : List Char} (digit : char.isDigit = true)
    (start : Nat) : scanStep start char rest = scanNumber start (char :: rest) := by
  have other {mark : Char} (noDigit : mark.isDigit = false) : char ≠ mark := by
    rintro rfl
    rw [digit] at noDigit
    cases noDigit
  have visible : isBlank char = false := by
    simp [isBlank, other (show ' '.isDigit = false from rfl),
      other (show '\t'.isDigit = false from rfl), other (show '\r'.isDigit = false from rfl),
      other (show '\n'.isDigit = false from rfl)]
  have sign (next : Option Char) : operatorAt? char next = none := by
    unfold operatorAt?
    split <;> first | rfl | exact absurd digit (by decide)
  have mark : Punctuation.ofMark? char = none := by
    cases found : Punctuation.ofMark? char with
    | none => rfl
    | some mark =>
        obtain rfl : mark.mark = char := by simpa using List.find?_some found
        cases mark <;> exact absurd digit (by decide)
  rw [scanStep_visible visible (other rfl), scanVisible, sign, mark]
  simp [other (show '"'.isDigit = false from rfl), other (show '\''.isDigit = false from rfl), digit]

theorem Spells.integer {rest : List Char} {kinds : List TokenKind} (spelled : Spells rest kinds)
    (parted : Parted rest) {digits : List Char} (all : AllDigits digits) (some : digits ≠ [])
    (bound : digitsValue digits ≤ largestInteger) :
    Spells (digits ++ rest) (.int (digitsValue digits) :: kinds) := by
  have split := numerals_append all (isNumeral_of_parted parted.name)
  cases digits with
  | nil => exact absurd rfl some
  | cons first others =>
      rw [List.cons_append] at split ⊢
      refine spelled.lexeme (Option.some (.int (digitsValue (first :: others)))) fun start =>
        ⟨start + byteCount (first :: others), ?_⟩
      rw [scanStep_digit (all first List.mem_cons_self), scanNumber]
      simp only [split, parted.number, withoutUnderscores_of_allDigits all, bound, if_true]
      rfl

theorem Spells.decimal {rest : List Char} {kinds : List TokenKind} (spelled : Spells rest kinds)
    (parted : Parted rest) {whole fraction : List Char} (allWhole : AllDigits whole)
    (someWhole : whole ≠ []) (allFraction : AllDigits fraction) (someFraction : fraction ≠ []) :
    Spells (whole ++ '.' :: (fraction ++ rest))
      (.float (⟨digitsValue (whole ++ fraction), fraction.length⟩ : Decimal).toBinary64 ::
        kinds) := by
  have point : ∀ char ∈ ('.' :: (fraction ++ rest)).head?, isNumeral char = false := by
    intro char head
    obtain rfl : '.' = char := by simpa using head
    rfl
  have wholeSplit := numerals_append allWhole point
  have fractionSplit := numerals_append allFraction (isNumeral_of_parted parted.name)
  have found : fraction? ('.' :: (fraction ++ rest)) = some (fraction, rest) := by
    cases fraction with
    | nil => exact absurd rfl someFraction
    | cons first others =>
        have digit := allFraction first List.mem_cons_self
        rw [List.cons_append] at fractionSplit ⊢
        simp [fraction?, digit, fractionSplit]
  cases whole with
  | nil => exact absurd rfl someWhole
  | cons first others =>
      rw [List.cons_append] at wholeSplit ⊢
      refine spelled.lexeme (some (.float _)) fun start =>
        ⟨start + byteCount (first :: others) + 1 + byteCount fraction, ?_⟩
      rw [scanStep_digit (allWhole first List.mem_cons_self), scanNumber]
      simp only [wholeSplit, found, withoutUnderscores_of_allDigits allWhole,
        withoutUnderscores_of_allDigits allFraction]
      rfl

end Token

end DataClass
