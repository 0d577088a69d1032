import DataClass.Text.Blank
namespace DataClass

/-! Lines of a text, and the line and column of a byte offset. -/

/-- The number of bytes of the UTF-8 form. -/
def byteCount (chars : List Char) : Nat := chars.foldr (fun char count => char.utf8Size + count) 0

@[simp] theorem byteCount_nil : byteCount [] = 0 := rfl

@[simp] theorem byteCount_cons (head : Char) (tail : List Char) :
    byteCount (head :: tail) = head.utf8Size + byteCount tail := rfl

theorem byteCount_append (left right : List Char) :
    byteCount (left ++ right) = byteCount left + byteCount right := by
  induction left with
  | nil => simp
  | cons char rest ih => simp [ih, Nat.add_assoc]

/-- The place of a byte offset: the number of its line, its column in bytes (both counted
from one), and the text of the line without its line feed. -/
structure LinePosition where
  line : Nat
  column : Nat
  text : String
deriving DecidableEq

namespace LinePosition

/-- Walk to the last character that starts before `offset`, remembering the line being read:
its number, the offset of its first byte, and the characters from there on. -/
def walk (offset : Nat) (position line lineStart : Nat) (lineChars : List Char) :
    List Char → Nat × Nat × List Char
  | [] => (line, lineStart, lineChars)
  | char :: rest =>
      if offset ≤ position then (line, lineStart, lineChars)
      else if char = '\n' then walk offset (position + 1) (line + 1) (position + 1) rest rest
      else walk offset (position + char.utf8Size) line lineStart lineChars rest

/-- Find the line and column of an offset. An offset past the end counts as the end. -/
def ofOffset (source : String) (offset : Nat) : LinePosition :=
  let chars := source.toList
  let offset := min offset (byteCount chars)
  let (line, lineStart, lineChars) := walk offset 0 1 0 chars chars
  ⟨line, offset - lineStart + 1, String.ofList (lineChars.takeWhile (· != '\n'))⟩

end LinePosition

/-- The lines of a text. A line ends at a line feed; a carriage return just before it belongs to
the ending. What follows the last line feed is a line unless it is empty. -/
def linesOf : List Char → List (List Char)
  | [] => []
  | '\n' :: rest => [] :: linesOf rest
  | '\r' :: '\n' :: rest => [] :: linesOf rest
  | char :: rest =>
      match linesOf rest with
      | [] => [[char]]
      | line :: lines => (char :: line) :: lines

/-- The parts of a text between its line feeds; one more than there are line feeds. -/
def pieces : List Char → List (List Char)
  | [] => [[]]
  | char :: rest =>
      if char = '\n' then [] :: pieces rest
      else
        match pieces rest with
        | [] => [[char]]
        | first :: later => (char :: first) :: later

/-- The lines that a text is shown in: cut at each line feed, without white space at their ends. -/
def shownLines (text : String) : List String :=
  (pieces text.toList).map fun line => String.ofList (trimEnd line)

/-- One line of a comparison: a sign, the line number in four columns, the text. -/
def differenceLine (sign : String) (number : Nat) (line : List Char) : String :=
  let digits := toString number
  let padding := String.ofList (List.replicate (4 - digits.length) ' ')
  sign ++ padding ++ digits ++ " | " ++ String.ofList line ++ "\n"

/-- Compare two lists of lines, number by number. A line that differs is shown with `-` on the
old side and `+` on the new side, and left out where it is empty. -/
def differenceLines (number : Nat) : List (List Char) → List (List Char) → List String
  | [], [] => []
  | old :: olds, [] => shown old [] ++ differenceLines (number + 1) olds []
  | [], new :: news => shown [] new ++ differenceLines (number + 1) [] news
  | old :: olds, new :: news => shown old new ++ differenceLines (number + 1) olds news
where
  shown (old new : List Char) : List String :=
    if old == new then []
    else
      (if old.isEmpty then [] else [differenceLine "-" number old]) ++
      (if new.isEmpty then [] else [differenceLine "+" number new])

/-- The difference of two texts, line against line. -/
def lineDifference (old new : String) : String :=
  String.join (differenceLines 1 (linesOf old.toList) (linesOf new.toList))

end DataClass
