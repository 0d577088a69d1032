import DataClass.Diagnostic.Basic
import DataClass.Text.Line
import DataClass.Token.Basic
import DataClass.Vocabulary.Naming
namespace DataClass

/-! Cutting a text into tokens.

A step looks at the first character, takes a *lexeme* off the front of the text (a token, a blank,
a comment, or something that is wrong) and leaves the rest. Whatever is wrong is reported and
stepped over, so one run finds every fault of the text.
-/

/-- What a step took from the front: at most one token, the faults met on the way, the offset
behind it, and the text that is left. -/
structure Lexeme where
  token : Option TokenKind
  faults : List Diagnostic
  stop : Nat
  rest : List Char

namespace Lexeme

def skipped (stop : Nat) (rest : List Char) : Lexeme := ⟨none, [], stop, rest⟩

def found (kind : TokenKind) (stop : Nat) (rest : List Char) : Lexeme := ⟨some kind, [], stop, rest⟩

def faulty (fault : Diagnostic) (stop : Nat) (rest : List Char) : Lexeme :=
  ⟨none, [fault], stop, rest⟩

/-- The token of a lexeme that began at `start`. -/
def tokens (start : Nat) (lexeme : Lexeme) : List Token :=
  (lexeme.token.map fun kind => ⟨kind, ⟨start, lexeme.stop⟩⟩).toList

end Lexeme

namespace Token

def unexpectedCharacter (char : Char) (span : Span) : Diagnostic :=
  .syntaxFault ("Unexpected character '" ++ String.singleton char ++ "'") span

def unknownEscape (char : Char) (span : Span) : Diagnostic :=
  .syntaxFault ("Unknown escape sequence '\\" ++ String.singleton char ++ "'") span

def unterminatedString (span : Span) : Diagnostic :=
  (Diagnostic.syntaxFault "Unterminated string literal" span).withHint
    "Close the string with a matching quote on the same line"

def unterminatedComment (span : Span) : Diagnostic :=
  (Diagnostic.syntaxFault "Unterminated block comment" span).withHint
    "Close the comment with '*/'"

def integerOutOfRange (digits : List Char) (span : Span) : Diagnostic :=
  .syntaxFault ("Integer literal '" ++ String.ofList digits ++ "' does not fit in 64 bits") span

/-- White space; line ends mean nothing more. -/
def isBlank (char : Char) : Bool :=
  char == ' ' || char == '\t' || char == '\r' || char == '\n'

/-- The operator at the front of a text, and whether it takes the second character as well. -/
def operatorAt? : Char → Option Char → Option (Operator × Bool)
  | '+', _ => some (.plus, false)
  | '-', _ => some (.minus, false)
  | '*', _ => some (.star, false)
  | '/', _ => some (.slash, false)
  | '%', _ => some (.percent, false)
  | '=', next => some (if next = some '=' then (.eqEq, true) else (.eq, false))
  | '!', next => some (if next = some '=' then (.notEq, true) else (.bang, false))
  | '<', next => some (if next = some '=' then (.ltEq, true) else (.lt, false))
  | '>', next => some (if next = some '=' then (.gtEq, true) else (.gt, false))
  | '&', next => if next = some '&' then some (.andAnd, true) else none
  | '|', next => if next = some '|' then some (.orOr, true) else none
  | _, _ => none

/-- The text behind the end of a block comment, and its offset. -/
def afterComment? (position : Nat) : List Char → Option (Nat × List Char)
  | [] => none
  | '*' :: '/' :: rest => some (position + 2, rest)
  | char :: rest => afterComment? (position + char.utf8Size) rest

/-- The character that stands for itself behind a backslash, or that the backslash turns it into. -/
def escaped? : Char → Option Char
  | 'n' => some '\n'
  | 't' => some '\t'
  | 'r' => some '\r'
  | '0' => some '\x00'
  | '\\' => some '\\'
  | '"' => some '"'
  | '\'' => some '\''
  | _ => none

/-- The inside of a string literal as far as it could be read. -/
structure StringBody where
  value : List Char
  closed : Bool
  faults : List Diagnostic
  stop : Nat
  rest : List Char

namespace StringBody

def cons (char : Char) (body : StringBody) : StringBody :=
  { body with value := char :: body.value }

def report (fault : Diagnostic) (body : StringBody) : StringBody :=
  { body with faults := fault :: body.faults }

end StringBody

/-- Read up to the closing quote. A line feed, unless a backslash stands before it, ends the
reading and is taken along. -/
def stringBody (quote : Char) (position : Nat) : List Char → StringBody
  | [] => ⟨[], false, [], position, []⟩
  | char :: rest =>
      if char = quote then ⟨[], true, [], position + char.utf8Size, rest⟩
      else if char = '\\' then
        match rest with
        | [] => ⟨[], false, [], position + 1, []⟩
        | marked :: rest =>
            let stop := position + 1 + marked.utf8Size
            match escaped? marked with
            | some value => (stringBody quote stop rest).cons value
            | none =>
                (stringBody quote stop rest).report (unknownEscape marked ⟨position, stop⟩)
      else if char = '\n' then ⟨[], false, [], position + 1, rest⟩
      else (stringBody quote (position + char.utf8Size) rest).cons char

def scanString (quote : Char) (start : Nat) (rest : List Char) : Lexeme :=
  let body := stringBody quote (start + quote.utf8Size) rest
  if body.closed then ⟨some (.string (String.ofList body.value)), body.faults, body.stop, body.rest⟩
  else ⟨none, body.faults ++ [unterminatedString ⟨start, body.stop⟩], body.stop, body.rest⟩

/-- A character of a number behind its first digit; underscores only group digits. -/
def isNumeral (char : Char) : Bool := char.isDigit || char == '_'

def withoutUnderscores (chars : List Char) : List Char := chars.filter (· != '_')

/-- The fraction of a number: a point, a digit, and more numerals. -/
def fraction? : List Char → Option (List Char × List Char)
  | '.' :: digit :: rest =>
      if digit.isDigit then
        some ((digit :: rest).takeWhile isNumeral, (digit :: rest).dropWhile isNumeral)
      else none
  | _ => none

def largestInteger : Nat := Nat.pow 2 63 - 1

def scanNumber (start : Nat) (chars : List Char) : Lexeme :=
  let whole := chars.takeWhile isNumeral
  let rest := chars.dropWhile isNumeral
  match fraction? rest with
  | some (fraction, rest) =>
      let digits := withoutUnderscores fraction
      let value : Decimal := ⟨digitsValue (withoutUnderscores whole ++ digits), digits.length⟩
      .found (.float value.toBinary64) (start + byteCount whole + 1 + byteCount fraction) rest
  | none =>
      let stop := start + byteCount whole
      let digits := withoutUnderscores whole
      if digitsValue digits ≤ largestInteger then .found (.int (digitsValue digits)) stop rest
      else .faulty (integerOutOfRange digits ⟨start, stop⟩) stop rest

def wordKind (spelling : String) : TokenKind :=
  match Keyword.ofSpelling? spelling with
  | some word => .keyword word
  | none => .identifier spelling

def scanWord (start : Nat) (chars : List Char) : Lexeme :=
  let word := chars.takeWhile isIdentifierRest
  .found (wordKind (String.ofList word)) (start + byteCount word) (chars.dropWhile isIdentifierRest)

def scanLineComment (start : Nat) (chars : List Char) : Lexeme :=
  .skipped (start + byteCount (chars.takeWhile (· != '\n'))) (chars.dropWhile (· != '\n'))

def scanBlockComment (start : Nat) (body : List Char) : Lexeme :=
  match afterComment? (start + 2) body with
  | some (stop, rest) => .skipped stop rest
  | none =>
      let stop := start + 2 + byteCount body
      .faulty (unterminatedComment ⟨start, stop⟩) stop []

/-- Everything but blanks and comments. -/
def scanVisible (start : Nat) (char : Char) (rest : List Char) : Lexeme :=
  match operatorAt? char rest.head? with
  | some (sign, true) => .found (.operator sign) (start + 2) rest.tail
  | some (sign, false) => .found (.operator sign) (start + 1) rest
  | none =>
      match Punctuation.ofMark? char with
      | some mark => .found (.punctuation mark) (start + 1) rest
      | none =>
          if char == '"' || char == '\'' then scanString char start rest
          else if char.isDigit then scanNumber start (char :: rest)
          else if isIdentifierStart char then scanWord start (char :: rest)
          else
            let stop := start + char.utf8Size
            .faulty (unexpectedCharacter char ⟨start, stop⟩) stop rest

/-- Take one lexeme off the front of a text. -/
def scanStep (start : Nat) (char : Char) (rest : List Char) : Lexeme :=
  if isBlank char then .skipped (start + 1) rest
  else
    match char, rest with
    | '/', '/' :: _ => scanLineComment start (char :: rest)
    | '/', '*' :: body => scanBlockComment start body
    | _, _ => scanVisible start char rest

theorem afterComment?_length {position stop : Nat} {chars rest : List Char}
    (found : afterComment? position chars = some (stop, rest)) : rest.length ≤ chars.length := by
  fun_induction afterComment? position chars with
  | case1 => cases found
  | case2 => cases found; simp; omega
  | case3 _ _ _ _ ih => have := ih found; simp; omega

theorem stringBody_length (quote : Char) (position : Nat) (chars : List Char) :
    (stringBody quote position chars).rest.length ≤ chars.length := by
  fun_induction stringBody quote position chars <;>
    simp_all [StringBody.cons, StringBody.report] <;> omega

theorem dropWhile_length (accept : Char → Bool) (chars : List Char) :
    (chars.dropWhile accept).length ≤ chars.length :=
  (List.dropWhile_sublist accept).length_le

theorem fraction?_length {chars fraction rest : List Char}
    (found : fraction? chars = some (fraction, rest)) : rest.length ≤ chars.length := by
  unfold fraction? at found
  split at found
  · split at found
    · cases found
      exact Nat.le_succ_of_le (dropWhile_length _ _)
    · cases found
  · cases found

theorem scanNumber_length (start : Nat) (char : Char) (rest : List Char) (digit : char.isDigit) :
    (scanNumber start (char :: rest)).rest.length ≤ rest.length := by
  have first : isNumeral char = true := by simp [isNumeral, digit]
  have bound := dropWhile_length isNumeral rest
  unfold scanNumber
  simp only [List.dropWhile_cons, first, if_true]
  split
  · next found =>
      have := fraction?_length found
      simp only [Lexeme.found]
      omega
  · split <;> simpa [Lexeme.found, Lexeme.faulty] using bound

theorem isIdentifierRest_of_start {char : Char} (start : isIdentifierStart char) :
    isIdentifierRest char := by
  simp only [isIdentifierStart, Bool.or_eq_true] at start
  rcases start with letter | underscore
  · simp [isIdentifierRest, Char.isAlphanum, letter]
  · simp [isIdentifierRest, underscore]

theorem scanStep_length (start : Nat) (char : Char) (rest : List Char) :
    (scanStep start char rest).rest.length ≤ rest.length := by
  unfold scanStep
  split
  · simp [Lexeme.skipped]
  · split
    · simp only [scanLineComment, Lexeme.skipped, List.dropWhile_cons]
      exact Nat.le_trans (dropWhile_length _ _) (by simp)
    · unfold scanBlockComment
      split
      · next found => have := afterComment?_length found; simp [Lexeme.skipped]; omega
      · simp [Lexeme.faulty]
    · unfold scanVisible
      split
      · simp [Lexeme.found]
      · simp [Lexeme.found]
      · split
        · simp [Lexeme.found]
        · split
          · unfold scanString
            have := stringBody_length char (start + char.utf8Size) rest
            dsimp only
            split <;> simpa using this
          · split
            · next digit => exact scanNumber_length start char rest digit
            · split
              · next letter =>
                  have := isIdentifierRest_of_start letter
                  simp only [scanWord, Lexeme.found, List.dropWhile_cons, this, if_true]
                  exact dropWhile_length _ _
              · simp [Lexeme.faulty]

/-- The tokens and the faults of a text that begins at the offset `position`. The last token
marks the end. -/
def scanFrom (position : Nat) (chars : List Char) : List Token × List Diagnostic :=
  match chars with
  | [] => ([⟨.endOfFile, ⟨position, position⟩⟩], [])
  | char :: rest =>
      let lexeme := scanStep position char rest
      let later := scanFrom lexeme.stop lexeme.rest
      (lexeme.tokens position ++ later.1, lexeme.faults ++ later.2)
termination_by chars.length
decreasing_by
  exact Nat.lt_succ_of_le (scanStep_length position char rest)

/-- Cut a text into tokens, or report all that is wrong with it. -/
def scan (source : String) : Except (List Diagnostic) (List Token) :=
  match scanFrom 0 source.toList with
  | (tokens, []) => .ok tokens
  | (_, faults) => .error faults

end Token

end DataClass
