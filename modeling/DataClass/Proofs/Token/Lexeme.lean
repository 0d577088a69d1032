import DataClass.Proofs.Token.Spelling
namespace DataClass

namespace Diagnostic

@[simp] theorem shift_syntaxFault (offset : Nat) (message : String) (span : Span) :
    (syntaxFault message span).shift offset =
      syntaxFault message ⟨span.start + offset, span.stop + offset⟩ := rfl

@[simp] theorem shift_withHint (offset : Nat) (fault : Diagnostic) (hint : String) :
    (fault.withHint hint).shift offset = (fault.shift offset).withHint hint := rfl

end Diagnostic

namespace Lexeme

/-- The same lexeme in a text that has `offset` more bytes in front. -/
def shift (offset : Nat) (lexeme : Lexeme) : Lexeme :=
  { lexeme with faults := lexeme.faults.map (·.shift offset), stop := lexeme.stop + offset }

/-- The same lexeme in front of another text. -/
def before (lexeme : Lexeme) (rest : List Char) : Lexeme := { lexeme with rest := rest }

/-- The characters of a text that begins at `start` which the lexeme stands for. -/
structure Takes (lexeme : Lexeme) (start : Nat) (chars taken : List Char) : Prop where
  front : chars = taken ++ lexeme.rest
  stop : lexeme.stop = start + byteCount taken

theorem tokens_shift (start offset : Nat) (lexeme : Lexeme) :
    (lexeme.shift offset).tokens (start + offset) =
      (lexeme.tokens start).map (Token.shift offset) := by
  obtain ⟨token, faults, stop, rest⟩ := lexeme
  cases token <;> rfl

end Lexeme

namespace Token

/-! What a lexeme takes, and what it depends on: the place it begins at moves it as a whole, and it
sees no more of the text behind it than whether that would make it longer. -/

/-- A string literal or a block comment that does not end. -/
def Unterminated (fault : Diagnostic) : Prop :=
  ∃ span, fault = unterminatedString span ∨ fault = unterminatedComment span

/-- Where something ends in front of `rest`, it also ends in front of `other`: that begins like `rest`, or
with the end of a line, or there is nothing of it. -/
structure Alike (rest other : List Char) : Prop where
  head : ∀ char ∈ other.head?, char = '\n' ∨ rest.head? = some char
  fraction : fraction? rest = none → fraction? other = none

/-- A text behind which nothing can go on: it is empty or begins with the end of a line. -/
def Breaks (rest : List Char) : Prop := ∀ char ∈ rest.head?, char = '\n'

variable {start offset : Nat} {char : Char} {chars rest other : List Char}

theorem Alike.refl (rest : List Char) : Alike rest rest := ⟨fun _ head => .inr head, id⟩

theorem Breaks.alike (breaks : Breaks other) : Alike rest other := by
  refine ⟨fun char head => .inl (breaks char head), fun _ => ?_⟩
  cases other with
  | nil => rfl
  | cons first others =>
      obtain rfl := breaks first rfl
      rfl

/-- Two texts that are alike stay so behind the same text. -/
theorem Alike.append (alike : Alike rest other) (kept : List Char) :
    Alike (kept ++ rest) (kept ++ other) := by
  match kept with
  | [] => exact alike
  | [point] =>
      refine ⟨fun _ head => .inr head, fun none => ?_⟩
      -- the fraction, if there is one, begins with the point and goes on with a digit of the text
      by_cases here : point = '.'
      · subst here
        cases other with
        | nil => rfl
        | cons first others =>
            rcases alike.head first rfl with rfl | same
            · rfl
            · cases rest with
              | nil => cases same
              | cons digit behind =>
                  obtain rfl := Option.some.inj same
                  simpa [fraction?] using none
      · simp [fraction?, here]
  | point :: digit :: others =>
      refine ⟨fun _ head => .inr head, fun none => ?_⟩
      by_cases here : point = '.'
      · subst here
        simpa [fraction?] using none
      · simp [fraction?, here]

theorem Alike.reject {accept : Char → Bool} (alike : Alike (chars.dropWhile accept) other)
    (newline : accept '\n' = false) : ∀ char ∈ other.head?, accept char = false := by
  intro char head
  rcases alike.head char head with rfl | same
  · exact newline
  · have stops := List.head?_dropWhile_not accept chars
    rwa [same] at stops

/-- What is taken off a text as long as it is accepted is taken off in front of another text too. -/
theorem takeWhile_alike {accept : Char → Bool} (alike : Alike (chars.dropWhile accept) other)
    (newline : accept '\n' = false) :
    (chars.takeWhile accept ++ other).takeWhile accept = chars.takeWhile accept ∧
      (chars.takeWhile accept ++ other).dropWhile accept = other :=
  takeWhile_append (fun _ inside => List.all_eq_true.mp List.all_takeWhile _ inside) (alike.reject newline)

/-! The inside of a string literal, one character at a time. -/

section StringBody

variable {quote marked value : Char} {position : Nat}

theorem stringBody_quote (rest : List Char) :
    stringBody quote position (quote :: rest) =
      ⟨[], true, [], position + quote.utf8Size, rest⟩ := by
  cases rest <;> simp [stringBody]

theorem stringBody_escaped (other : '\\' ≠ quote) (known : escaped? marked = some value)
    (rest : List Char) :
    stringBody quote position ('\\' :: marked :: rest) =
      (stringBody quote (position + 1 + marked.utf8Size) rest).cons value := by
  simp [stringBody, other, known]

theorem stringBody_unknown (other : '\\' ≠ quote) (unknown : escaped? marked = none)
    (rest : List Char) :
    stringBody quote position ('\\' :: marked :: rest) =
      (stringBody quote (position + 1 + marked.utf8Size) rest).report
        (unknownEscape marked ⟨position, position + 1 + marked.utf8Size⟩) := by
  simp [stringBody, other, unknown]

theorem stringBody_plain (other : char ≠ quote) (plain : char ≠ '\\') (inside : char ≠ '\n')
    (rest : List Char) :
    stringBody quote position (char :: rest) =
      (stringBody quote (position + char.utf8Size) rest).cons char := by
  cases rest <;> simp [stringBody, other, plain, inside]

/-- A string literal is read up to some place, and if it is closed there what follows makes no difference. -/
theorem stringBody_front (quote : Char) (position : Nat) (chars : List Char) :
    ∃ taken, chars = taken ++ (stringBody quote position chars).rest ∧
      (stringBody quote position chars).stop = position + byteCount taken ∧
      ((stringBody quote position chars).closed = true → ∀ other,
        stringBody quote position (taken ++ other) =
          { stringBody quote position chars with rest := other }) := by
  fun_induction stringBody quote position chars with
  | case1 position => exact ⟨[], rfl, rfl, fun closed => absurd closed Bool.false_ne_true⟩
  | case2 position rest => exact ⟨[quote], rfl, rfl, fun _ other => stringBody_quote other⟩
  | case3 position => exact ⟨['\\'], rfl, rfl, fun closed => absurd closed Bool.false_ne_true⟩
  | case4 position marked rest stop value known other ih =>
      obtain ⟨taken, front, stops, same⟩ := ih
      refine ⟨'\\' :: marked :: taken, congrArg (_ :: _ :: ·) front, ?_, fun closed text => ?_⟩
      · rw [StringBody.cons, stops, byteCount_cons, byteCount_cons, ← Nat.add_assoc, ← Nat.add_assoc]
        rfl
      · rw [List.cons_append, List.cons_append, stringBody_escaped other known, same closed]
        rfl
  | case5 position marked rest stop unknown other ih =>
      obtain ⟨taken, front, stops, same⟩ := ih
      refine ⟨'\\' :: marked :: taken, congrArg (_ :: _ :: ·) front, ?_, fun closed text => ?_⟩
      · rw [StringBody.report, stops, byteCount_cons, byteCount_cons, ← Nat.add_assoc, ← Nat.add_assoc]
        rfl
      · rw [List.cons_append, List.cons_append, stringBody_unknown other unknown, same closed]
        rfl
  | case6 position rest => exact ⟨['\n'], rfl, rfl, fun closed => absurd closed Bool.false_ne_true⟩
  | case7 position char rest other plain inside ih =>
      obtain ⟨taken, front, stops, same⟩ := ih
      refine ⟨char :: taken, congrArg (_ :: ·) front, ?_, fun closed text => ?_⟩
      · rw [StringBody.cons, stops, byteCount_cons, ← Nat.add_assoc]
      · rw [List.cons_append, stringBody_plain other plain inside, same closed]
        rfl

theorem stringBody_shift (quote : Char) (position offset : Nat) (chars : List Char) :
    stringBody quote (position + offset) chars =
      { stringBody quote position chars with
        faults := (stringBody quote position chars).faults.map (·.shift offset)
        stop := (stringBody quote position chars).stop + offset } := by
  fun_induction stringBody quote position chars with
  | case1 position => rfl
  | case2 position rest =>
      rw [stringBody_quote, Nat.add_right_comm]
      rfl
  | case3 position other => simp [stringBody, other, Nat.add_right_comm]
  | case4 position marked rest stop value known other ih =>
      have place : position + offset + 1 + marked.utf8Size = stop + offset := by
        simp only [stop]
        omega
      rw [stringBody_escaped other known, place, ih]
      rfl
  | case5 position marked rest stop unknown other ih =>
      have place : position + offset + 1 + marked.utf8Size = stop + offset := by
        simp only [stop]
        omega
      rw [stringBody_unknown other unknown, place, ih]
      rfl
  | case6 position rest other plain =>
      cases rest <;> simp [stringBody, other, Nat.add_right_comm]
  | case7 position char rest other plain inside ih =>
      rw [stringBody_plain other plain inside, Nat.add_right_comm, ih]
      rfl

end StringBody

theorem afterComment?_front {position stop : Nat} {chars rest : List Char}
    (found : afterComment? position chars = some (stop, rest)) :
    ∃ inside, chars = inside ++ '*' :: '/' :: rest ∧ stop = position + byteCount inside + 2 ∧
      ¬['*', '/'] <:+: inside ++ ['*'] ∧
      ∀ other, afterComment? position (inside ++ '*' :: '/' :: other) = some (stop, other) := by
  fun_induction afterComment? position chars with
  | case1 => cases found
  | case2 position rest =>
      cases found
      exact ⟨[], rfl, rfl, by decide, fun _ => rfl⟩
  | case3 position char chars closes ih =>
      obtain ⟨inside, front, stops, first, same⟩ := ih found
      have early : ∀ other later, char = '*' → inside ++ '*' :: other = '/' :: later → False := by
        intro other later star slash
        cases inside with
        | nil => cases slash
        | cons next inside =>
            obtain ⟨rfl, -⟩ := List.cons.inj slash
            exact closes _ star front
      refine ⟨char :: inside, congrArg (_ :: ·) front, ?_, ?_, fun other => ?_⟩
      · rw [stops, byteCount_cons]
        omega
      · rw [List.cons_append, List.infix_cons_iff, List.cons_prefix_cons, not_or]
        refine ⟨?_, first⟩
        rintro ⟨star, later, slash⟩
        exact early [] later star.symm slash.symm
      · rw [List.cons_append, afterComment?, same]
        exact fun later star => early _ later star

theorem afterComment?_shift (position offset : Nat) (chars : List Char) :
    afterComment? (position + offset) chars =
      (afterComment? position chars).map fun found => (found.1 + offset, found.2) := by
  fun_induction afterComment? position chars with
  | case1 => rfl
  | case2 position rest => simp [afterComment?, Nat.add_right_comm]
  | case3 position char rest closes ih =>
      rw [afterComment?, Nat.add_right_comm, ih]
      exact closes

/-- A step of the scanner stands for some characters, and if nothing it takes is left without an end it does
the same in front of every text that is alike. -/
def Settles (scan : List Char → Lexeme) (start : Nat) (chars : List Char) : Prop :=
  ∃ taken, (scan chars).Takes start chars taken ∧
    ((∀ fault ∈ (scan chars).faults, ¬Unterminated fault) → ∀ other, Alike (scan chars).rest other →
      scan (taken ++ other) = (scan chars).before other)

theorem settles_scanString (quote : Char) (start : Nat) (rest : List Char) :
    Settles (scanString quote start) (start + quote.utf8Size) rest := by
  obtain ⟨taken, front, stops, same⟩ := stringBody_front quote (start + quote.utf8Size) rest
  cases closed : (stringBody quote (start + quote.utf8Size) rest).closed with
  | true =>
      refine ⟨taken, ⟨?_, ?_⟩, fun _ other _ => ?_⟩
      · simpa [scanString, closed] using front
      · simpa [scanString, closed] using stops
      · simp [scanString, same closed, closed, Lexeme.before]
  | false =>
      refine ⟨taken, ⟨?_, ?_⟩, fun ended => ?_⟩
      · simpa [scanString, closed] using front
      · simpa [scanString, closed] using stops
      · have last : unterminatedString ⟨start, (stringBody quote (start + quote.utf8Size) rest).stop⟩ ∈
            (scanString quote start rest).faults := by simp [scanString, closed]
        exact absurd ⟨_, .inl rfl⟩ (ended _ last)

theorem scanString_shift (quote : Char) (start offset : Nat) (rest : List Char) :
    scanString quote (start + offset) rest = (scanString quote start rest).shift offset := by
  unfold scanString
  rw [Nat.add_right_comm, stringBody_shift]
  dsimp only
  split
  · rfl
  · simp [Lexeme.shift, unterminatedString]

theorem fraction?_front {fraction : List Char} (found : fraction? chars = some (fraction, rest)) :
    chars = '.' :: (fraction ++ rest) ∧ ∀ other, Alike rest other →
      fraction? ('.' :: (fraction ++ other)) = some (fraction, other) := by
  unfold fraction? at found
  split at found
  · next digit behind =>
      cases digits : digit.isDigit with
      | false => simp [digits] at found
      | true =>
          simp only [digits, if_true, Option.some.injEq, Prod.mk.injEq] at found
          obtain ⟨rfl, rfl⟩ := found
          refine ⟨congrArg (_ :: ·) List.takeWhile_append_dropWhile.symm, fun other alike => ?_⟩
          have split := takeWhile_alike alike (by decide)
          rw [List.takeWhile_cons_of_pos (isNumeral_of_isDigit digits), List.cons_append] at split ⊢
          simp [fraction?, digits, split]
  · cases found

/-- Numerals in front of something else, as the scanner of numbers cuts them off. -/
theorem exists_numerals (rest : List Char) :
    ∃ whole behind, rest = whole ++ behind ∧ (∀ char ∈ whole, isNumeral char = true) ∧
      ∀ other, Alike behind other → ∀ char ∈ other.head?, isNumeral char = false :=
  ⟨rest.takeWhile isNumeral, rest.dropWhile isNumeral, List.takeWhile_append_dropWhile.symm,
    fun _ inside => List.all_eq_true.mp List.all_takeWhile _ inside,
    fun _ alike => alike.reject (by decide)⟩

theorem scanNumber_eq {whole behind : List Char} (digit : char.isDigit = true)
    (all : ∀ char ∈ whole, isNumeral char = true)
    (stop : ∀ char ∈ behind.head?, isNumeral char = false) :
    scanNumber start (char :: (whole ++ behind)) =
      match fraction? behind with
      | some (fraction, rest) =>
          .found (.float (⟨digitsValue (withoutUnderscores (char :: whole) ++ withoutUnderscores fraction),
              (withoutUnderscores fraction).length⟩ : Decimal).toBinary64)
            (start + byteCount (char :: whole) + 1 + byteCount fraction) rest
      | none =>
          if digitsValue (withoutUnderscores (char :: whole)) ≤ largestInteger then
            .found (.int (digitsValue (withoutUnderscores (char :: whole))))
              (start + byteCount (char :: whole)) behind
          else
            .faulty (integerOutOfRange (withoutUnderscores (char :: whole))
              ⟨start, start + byteCount (char :: whole)⟩) (start + byteCount (char :: whole)) behind := by
  have split := takeWhile_append (List.forall_mem_cons.mpr ⟨isNumeral_of_isDigit digit, all⟩) stop
  rw [List.cons_append] at split
  cases read : fraction? behind with
  | none => simp only [scanNumber, split.1, split.2, read]
  | some fraction => simp only [scanNumber, split.1, split.2, read]

theorem settles_scanNumber (start : Nat) (digit : char.isDigit = true) (rest : List Char) :
    Settles (fun rest => scanNumber start (char :: rest)) (start + char.utf8Size) rest := by
  obtain ⟨whole, behind, rfl, all, stop⟩ := exists_numerals rest
  have read := @scanNumber_eq start char whole behind digit all (stop _ (.refl _))
  cases found : fraction? behind with
  | some parts =>
      obtain ⟨fraction, left⟩ := parts
      obtain ⟨rfl, same⟩ := fraction?_front found
      simp only [found] at read
      refine ⟨whole ++ '.' :: fraction, ⟨?_, ?_⟩, fun _ other alike => ?_⟩
      · simp [read, Lexeme.found]
      · have point : '.'.utf8Size = 1 := rfl
        simp only [read, Lexeme.found, byteCount_append, byteCount_cons, point]
        omega
      · beta_reduce at alike ⊢
        rw [read] at alike ⊢
        have point : ∀ char ∈ ('.' :: (fraction ++ other)).head?, isNumeral char = false := by
          rintro char ⟨⟩
          rfl
        have again := @scanNumber_eq start char whole _ digit all point
        simp only [same other alike] at again
        rw [List.append_assoc]
        exact again
  | none =>
      simp only [found] at read
      refine ⟨whole, ⟨?_, ?_⟩, fun _ other alike => ?_⟩
      · beta_reduce
        rw [read]
        split <;> rfl
      · beta_reduce
        rw [read]
        split <;> exact (Nat.add_assoc ..).symm
      · have alike : Alike behind other := by
          beta_reduce at alike
          rw [read] at alike
          split at alike <;> exact alike
        have again := @scanNumber_eq start char whole other digit all (stop _ alike)
        simp only [alike.fraction found] at again
        beta_reduce
        rw [read, again]
        split <;> rfl

theorem scanNumber_shift (start offset : Nat) (digit : char.isDigit = true) (rest : List Char) :
    scanNumber (start + offset) (char :: rest) = (scanNumber start (char :: rest)).shift offset := by
  obtain ⟨whole, behind, rfl, all, stop⟩ := exists_numerals rest
  rw [scanNumber_eq digit all (stop _ (.refl _)), scanNumber_eq digit all (stop _ (.refl _))]
  split
  · simp only [Lexeme.found, Lexeme.shift, List.map_nil]
    congr 1
    omega
  · split <;>
    · simp [Lexeme.found, Lexeme.faulty, Lexeme.shift, integerOutOfRange, Nat.add_right_comm]

theorem settles_scanWord (start : Nat) (first : isIdentifierStart char = true) (rest : List Char) :
    Settles (fun rest => scanWord start (char :: rest)) (start + char.utf8Size) rest := by
  have here := isIdentifierRest_of_start first
  have newline : isIdentifierRest '\n' = false := by decide
  refine ⟨rest.takeWhile isIdentifierRest, ⟨?_, ?_⟩, fun _ other alike => ?_⟩
  · simp [scanWord, Lexeme.found, here]
  · simp [scanWord, Lexeme.found, here, Nat.add_assoc]
  · have alike : Alike (rest.dropWhile isIdentifierRest) other := by
      simpa [scanWord, Lexeme.found, here] using alike
    simp [scanWord, Lexeme.found, Lexeme.before, here, takeWhile_alike alike newline]

theorem scanWord_shift (start offset : Nat) (chars : List Char) :
    scanWord (start + offset) chars = (scanWord start chars).shift offset := by
  simp [scanWord, Lexeme.found, Lexeme.shift, Nat.add_right_comm]

theorem utf8Size_of_operator {next : Option Char} {sign : Operator} {double : Bool}
    (found : operatorAt? char next = some (sign, double)) :
    char.utf8Size = 1 ∧ (double = true → ∃ second, next = some second ∧ second.utf8Size = 1) := by
  unfold operatorAt? at found
  split at found <;> (try split at found) <;> simp_all <;> decide

/-- Whether a character is an operator of its own does not depend on what is behind it, if that is alike. -/
theorem operatorAt?_alike {next other : Option Char}
    (alike : ∀ char ∈ other, char = '\n' ∨ next = some char)
    (single : ∀ sign, operatorAt? char next ≠ some (sign, true)) :
    operatorAt? char other = operatorAt? char next := by
  have apart : ∀ mark, mark ≠ '\n' → next ≠ some mark → other ≠ some mark := by
    rintro mark visible absent rfl
    exact (alike mark rfl).elim visible absent
  have equal := apart '=' (by decide)
  unfold operatorAt? at single ⊢
  split <;> by_cases here : next = some '=' <;> simp_all

theorem utf8Size_of_mark {mark : Punctuation} (found : Punctuation.ofMark? char = some mark) :
    char.utf8Size = 1 := by
  obtain rfl : mark.mark = char := by simpa using List.find?_some found
  cases mark <;> rfl

/-- A step does what another one does, also in front of texts that are alike. -/
theorem Settles.of_eq {step scan : List Char → Lexeme} (settles : Settles scan start chars)
    (same : ∀ text : List Char, (∀ char ∈ text.head?, char = '\n' ∨ chars.head? = some char) →
      step text = scan text) : Settles step start chars := by
  obtain ⟨taken, takes, goes⟩ := settles
  have here : step chars = scan chars := same chars fun _ head => .inr head
  refine ⟨taken, here ▸ takes, fun ended other alike => ?_⟩
  rw [here] at ended alike ⊢
  rw [same _ fun char head => ?_, goes ended other alike]
  rw [takes.front]
  cases taken with
  | nil => exact alike.head char head
  | cons first others => exact .inr head

/-- A lexeme of a single character. -/
theorem settles_single (token : Option TokenKind) (faults : List Diagnostic) (stop : Nat)
    (rest : List Char) : Settles (fun rest => ⟨token, faults, stop, rest⟩) stop rest :=
  ⟨[], ⟨rfl, rfl⟩, fun _ _ _ => rfl⟩

theorem settles_scanVisible (start : Nat) (char : Char) (rest : List Char) :
    Settles (scanVisible start char) (start + char.utf8Size) rest := by
  cases sign : operatorAt? char rest.head? with
  | some found =>
      obtain ⟨size, double⟩ := utf8Size_of_operator sign
      obtain ⟨operator, _ | _⟩ := found
      · rw [size]
        refine (settles_single (some (.operator operator)) [] (start + 1) rest).of_eq fun text alike => ?_
        have again : operatorAt? char text.head? = _ := operatorAt?_alike alike (by simp [sign])
        rw [scanVisible, again, sign]
        rfl
      · obtain ⟨second, head, width⟩ := double rfl
        obtain ⟨behind, rfl⟩ : ∃ behind, rest = second :: behind := by
          cases rest with
          | nil => cases head
          | cons first behind => exact ⟨behind, congrArg (· :: behind) (Option.some.inj head)⟩
        rw [List.head?_cons] at sign
        refine ⟨[second], ⟨?_, ?_⟩, fun _ other _ => ?_⟩
        · simp [scanVisible, sign, Lexeme.found]
        · simp [scanVisible, sign, Lexeme.found, size, width]
        · simp [scanVisible, sign, Lexeme.found, Lexeme.before]
  | none =>
      have again : ∀ text : List Char, (∀ char ∈ text.head?, char = '\n' ∨ rest.head? = some char) →
          operatorAt? char text.head? = none := fun text alike =>
        (operatorAt?_alike alike (by simp [sign])).trans sign
      cases found : Punctuation.ofMark? char with
      | some mark =>
          rw [utf8Size_of_mark found]
          refine (settles_single (some (.punctuation mark)) [] (start + 1) rest).of_eq fun text alike => ?_
          simp [scanVisible, again text alike, found, Lexeme.found]
      | none =>
          by_cases quoted : char = '"' ∨ char = '\''
          · refine (settles_scanString char start rest).of_eq fun text alike => ?_
            simp [scanVisible, again text alike, found, quoted]
          · cases digit : char.isDigit with
            | true =>
                refine (settles_scanNumber start digit rest).of_eq fun text alike => ?_
                simp [scanVisible, again text alike, found, quoted, digit]
            | false =>
                cases first : isIdentifierStart char with
                | true =>
                    refine (settles_scanWord start first rest).of_eq fun text alike => ?_
                    simp [scanVisible, again text alike, found, quoted, digit, first]
                | false =>
                    refine (settles_single none [unexpectedCharacter char ⟨start, start + char.utf8Size⟩]
                      (start + char.utf8Size) rest).of_eq fun text alike => ?_
                    simp [scanVisible, again text alike, found, quoted, digit, first, Lexeme.faulty]

theorem utf8Size_of_blank (blank : isBlank char = true) : char.utf8Size = 1 := by
  simp only [isBlank, Bool.or_eq_true, beq_iff_eq] at blank
  rcases blank with ((rfl | rfl) | rfl) | rfl <;> rfl

/-- A comment up to the end of its line goes on until the text changes the line. -/
theorem settles_scanLineComment (start : Nat) (rest : List Char) :
    Settles (scanStep start '/') (start + '/'.utf8Size) ('/' :: rest) := by
  have read : ∀ text, scanStep start '/' ('/' :: text) = scanLineComment start ('/' :: '/' :: text) :=
    fun _ => rfl
  refine ⟨'/' :: rest.takeWhile (· != '\n'), ⟨?_, ?_⟩, fun _ other alike => ?_⟩
  · simp [read, scanLineComment, Lexeme.skipped]
  · simp [read, scanLineComment, Lexeme.skipped, Nat.add_assoc]
  · have alike : Alike (rest.dropWhile (· != '\n')) other := by
      simpa [read, scanLineComment, Lexeme.skipped] using alike
    simp [read, scanLineComment, Lexeme.skipped, Lexeme.before, takeWhile_alike alike]

theorem settles_scanBlockComment (start : Nat) (body : List Char) :
    Settles (scanStep start '/') (start + '/'.utf8Size) ('*' :: body) := by
  have step : ∀ text, scanStep start '/' ('*' :: text) = scanBlockComment start text := fun _ => rfl
  have opening : start + '/'.utf8Size + '*'.utf8Size = start + 2 := rfl
  cases found : afterComment? (start + 2) body with
  | some behind =>
      obtain ⟨stop, rest⟩ := behind
      obtain ⟨inside, front, stops, _, same⟩ := afterComment?_front found
      have read : scanStep start '/' ('*' :: body) = .skipped stop rest := by
        rw [step, scanBlockComment, found]
      have ending : byteCount ['*', '/'] = 2 := rfl
      refine ⟨'*' :: inside ++ ['*', '/'], ⟨?_, ?_⟩, fun _ other _ => ?_⟩
      · rw [read, front, List.append_assoc]
        rfl
      · rw [read, byteCount_append, byteCount_cons, ending, ← Nat.add_assoc, ← Nat.add_assoc, opening]
        exact stops
      · rw [read]
        simp [step, scanBlockComment, same, Lexeme.skipped, Lexeme.before]
  | none =>
      have read : scanStep start '/' ('*' :: body) =
          .faulty (unterminatedComment ⟨start, start + 2 + byteCount body⟩)
            (start + 2 + byteCount body) [] := by
        rw [step, scanBlockComment, found]
      refine ⟨'*' :: body, ⟨?_, ?_⟩, fun ended => ?_⟩
      · rw [read, Lexeme.faulty, List.append_nil]
      · rw [read, byteCount_cons, ← Nat.add_assoc, opening]
        rfl
      · rw [read] at ended
        exact absurd ⟨_, .inr rfl⟩ (ended _ (List.mem_singleton_self _))

theorem scanStep_slash (start : Nat) {rest : List Char} (line : rest.head? ≠ some '/')
    (block : rest.head? ≠ some '*') : scanStep start '/' rest = scanVisible start '/' rest := by
  unfold scanStep
  simp only [show isBlank '/' = false from rfl, Bool.false_eq_true, if_false]
  split
  · simp at line
  · simp at block
  · rfl

/-- Every step takes the character it looks at, and some of those behind it. -/
theorem settles_scanStep (start : Nat) (char : Char) (rest : List Char) :
    Settles (scanStep start char) (start + char.utf8Size) rest := by
  cases blank : isBlank char with
  | true =>
      rw [utf8Size_of_blank blank]
      refine (settles_single none [] (start + 1) rest).of_eq fun text _ => ?_
      simp [scanStep, blank, Lexeme.skipped]
  | false =>
      by_cases slash : char = '/'
      · subst slash
        -- one more character tells the two comments from the operator
        by_cases comment : rest.head? = some '/' ∨ rest.head? = some '*'
        · cases rest with
          | nil => simp at comment
          | cons mark rest =>
              obtain rfl | rfl : mark = '/' ∨ mark = '*' := by simpa using comment
              · exact settles_scanLineComment start rest
              · exact settles_scanBlockComment start rest
        · refine (settles_scanVisible start '/' rest).of_eq fun text alike => ?_
          have absent : ∀ mark, mark ≠ '\n' → rest.head? ≠ some mark → text.head? ≠ some mark :=
            fun mark visible other head => (alike mark head).elim visible other
          exact scanStep_slash start (absent '/' (by decide) fun head => comment (.inl head))
            (absent '*' (by decide) fun head => comment (.inr head))
      · exact (settles_scanVisible start char rest).of_eq fun text _ => scanStep_visible blank slash start

theorem scanVisible_shift (start offset : Nat) (char : Char) (rest : List Char) :
    scanVisible (start + offset) char rest = (scanVisible start char rest).shift offset := by
  unfold scanVisible
  split
  · simp [Lexeme.found, Lexeme.shift, Nat.add_right_comm]
  · simp [Lexeme.found, Lexeme.shift, Nat.add_right_comm]
  · split
    · simp [Lexeme.found, Lexeme.shift, Nat.add_right_comm]
    · split
      · exact scanString_shift char start offset rest
      · split
        · next digit => exact scanNumber_shift start offset digit rest
        · split
          · exact scanWord_shift start offset _
          · simp [Lexeme.faulty, Lexeme.shift, unexpectedCharacter, Nat.add_right_comm]

theorem scanBlockComment_shift (start offset : Nat) (body : List Char) :
    scanBlockComment (start + offset) body = (scanBlockComment start body).shift offset := by
  unfold scanBlockComment
  rw [Nat.add_right_comm, afterComment?_shift]
  cases afterComment? (start + 2) body with
  | some behind => rfl
  | none =>
      simp [Lexeme.faulty, Lexeme.shift, unterminatedComment, Nat.add_right_comm]

/-- Where the text begins only moves what is found in it. -/
theorem scanStep_shift (start offset : Nat) (char : Char) (rest : List Char) :
    scanStep (start + offset) char rest = (scanStep start char rest).shift offset := by
  unfold scanStep
  split
  · simp [Lexeme.skipped, Lexeme.shift, Nat.add_right_comm]
  · split
    · simp [scanLineComment, Lexeme.skipped, Lexeme.shift, Nat.add_right_comm]
    · exact scanBlockComment_shift start offset _
    · exact scanVisible_shift start offset _ _

end Token

end DataClass
