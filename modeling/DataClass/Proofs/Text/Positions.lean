import DataClass.Proofs.Text.Lines
import DataClass.Proofs.Token.Pointing
import Mathlib.Data.List.TakeWhile
import Mathlib.Tactic.SplitIfs
namespace DataClass

/-! The line and the column of an offset lead back to it. The walk to the offset goes over whole lines
and then over the beginning of one more, and it takes no line feed that does not stand in front of the
offset. So it finds the line of the offset, even where the offset is inside of the bytes of a character. -/

variable {chars current rest tail : List Char} {lines : List (List Char)} {offset : Nat}

/-! ### Bytes -/

/-- The byte of a line feed. -/
def feedByte : UInt8 := 10

/-- The bytes of the UTF-8 form of a text. -/
def bytesOf (chars : List Char) : List UInt8 := chars.flatMap String.utf8EncodeChar

theorem bytesOf_cons (char : Char) (chars : List Char) :
    bytesOf (char :: chars) = String.utf8EncodeChar char ++ bytesOf chars := List.flatMap_cons

theorem bytesOf_append (left right : List Char) :
    bytesOf (left ++ right) = bytesOf left ++ bytesOf right := List.flatMap_append

theorem length_bytesOf (chars : List Char) : (bytesOf chars).length = byteCount chars := by
  induction chars with
  | nil => rfl
  | cons char chars ih =>
      rw [bytesOf_cons, List.length_append, String.length_utf8EncodeChar, byteCount_cons, ih]

theorem toByteArray_eq_bytesOf (source : String) :
    source.toByteArray.data.toList = bytesOf source.toList := by
  rw [← String.utf8Encode_toList, List.utf8Encode, List.data_toByteArray, bytesOf]

/-- The byte of a line feed belongs to no other character. -/
theorem feedByte_mem_utf8EncodeChar {char : Char} :
    feedByte ∈ String.utf8EncodeChar char ↔ char = '\n' := by
  constructor
  · intro inside
    have value : char.val.toNat = 10 := by
      unfold String.utf8EncodeChar at inside
      dsimp only at inside
      split_ifs at inside <;>
        simp only [List.mem_cons, List.not_mem_nil, or_false, feedByte, ← UInt8.toNat_inj,
          UInt8.toNat_ofNat', UInt8.reduceToNat] at inside <;>
        omega
    exact Char.ext (UInt32.toNat_inj.mp value)
  · rintro rfl
    decide

theorem count_bytesOf (chars : List Char) : (bytesOf chars).count feedByte = chars.count '\n' := by
  induction chars with
  | nil => rfl
  | cons char chars ih =>
      rw [bytesOf_cons, List.count_append, List.count_cons, ih, Nat.add_comm]
      by_cases feed : char = '\n'
      · subst feed
        rfl
      · have none := List.count_eq_zero.mpr (mt feedByte_mem_utf8EncodeChar.mp feed)
        rw [none, if_neg (by simpa using feed)]

/-! ### Whole lines -/

/-- Lines with their line feeds. -/
def endedLines (lines : List (List Char)) : List Char := lines.flatMap (· ++ ['\n'])

theorem endedLines_cons (line : List Char) (lines : List (List Char)) :
    endedLines (line :: lines) = line ++ '\n' :: endedLines lines := by
  rw [endedLines, List.flatMap_cons, List.append_assoc]
  rfl

theorem endedLines_concat (lines : List (List Char)) (line : List Char) :
    endedLines (lines ++ [line]) = endedLines lines ++ (line ++ ['\n']) := by
  rw [endedLines, List.flatMap_append, List.flatMap_singleton]
  rfl

theorem byteCount_endedLines (lines : List (List Char)) :
    byteCount (endedLines lines) = (lines.map fun line => byteCount line + 1).sum := by
  induction lines with
  | nil => rfl
  | cons line lines ih =>
      rw [endedLines_cons, byteCount_append, byteCount_cons, ih, List.map_cons, List.sum_cons, Nat.add_assoc]
      rfl

theorem count_endedLines (single : ∀ line ∈ lines, '\n' ∉ line) :
    (endedLines lines).count '\n' = lines.length := by
  induction lines with
  | nil => rfl
  | cons line lines ih =>
      obtain ⟨here, later⟩ := List.forall_mem_cons.mp single
      rw [endedLines_cons, List.count_append, List.count_cons_self, ih later, List.count_eq_zero.mpr here,
        Nat.zero_add, List.length_cons]

/-- The first piece goes up to the first line feed. -/
theorem head?_pieces (chars : List Char) :
    (pieces chars).head? = some (chars.takeWhile (· != '\n')) := by
  induction chars with
  | nil => rfl
  | cons char chars ih =>
      by_cases feed : char = '\n'
      · subst feed
        rfl
      · obtain ⟨first, later, cut, next⟩ := pieces_cons feed chars
        rw [cut, List.head?_cons] at ih
        rw [next, List.takeWhile_cons_of_pos (by simpa using feed), List.head?_cons, Option.some.inj ih]

theorem pieces_line {line : List Char} (single : '\n' ∉ line) (tail : List Char) :
    pieces (line ++ '\n' :: tail) = line :: pieces tail := by
  induction line with
  | nil => rfl
  | cons char line ih =>
      rw [List.mem_cons, not_or] at single
      obtain ⟨first, later, cut, next⟩ := pieces_cons (Ne.symm single.1) (line ++ '\n' :: tail)
      obtain ⟨rfl, rfl⟩ := List.cons.inj (cut.symm.trans (ih single.2))
      exact next

theorem pieces_endedLines (single : ∀ line ∈ lines, '\n' ∉ line) (tail : List Char) :
    pieces (endedLines lines ++ tail) = lines ++ pieces tail := by
  induction lines with
  | nil => rfl
  | cons line lines ih =>
      obtain ⟨here, later⟩ := List.forall_mem_cons.mp single
      rw [endedLines_cons, List.append_assoc, List.cons_append, pieces_line here, ih later]
      rfl

/-! ### The walk -/

/-- A text cut where a walk stands: whole lines, the beginning of a line, and the rest. -/
structure Walked (chars : List Char) (lines : List (List Char)) (current rest : List Char) : Prop where
  whole : chars = endedLines lines ++ (current ++ rest)
  single : ∀ line ∈ lines, '\n' ∉ line
  begun : '\n' ∉ current

namespace Walked

theorem feed (walked : Walked chars lines current ('\n' :: rest)) :
    Walked chars (lines ++ [current]) [] rest := by
  refine ⟨?_, ?_, nofun⟩
  · rw [walked.whole, endedLines_concat, List.append_assoc, List.append_assoc]
    rfl
  · exact List.forall_mem_append.mpr ⟨walked.single, List.forall_mem_singleton.mpr walked.begun⟩

theorem char {char : Char} (walked : Walked chars lines current (char :: rest)) (other : char ≠ '\n') :
    Walked chars lines (current ++ [char]) rest := by
  refine ⟨?_, walked.single, ?_⟩
  · rw [walked.whole, List.append_assoc]
    rfl
  · rw [List.mem_append, List.mem_singleton, not_or]
    exact ⟨walked.begun, Ne.symm other⟩

/-- A walk stops within a line that begins in front of the offset or at it, at the end of the text or
where no character in front of the offset is left. -/
theorem exists_stop (walked : Walked chars lines current rest)
    (within : byteCount (endedLines lines) ≤ offset) : ∃ lines' current' rest',
      Walked chars lines' current' rest' ∧ byteCount (endedLines lines') ≤ offset ∧
      (rest' = [] ∨ offset ≤ byteCount (endedLines lines') + byteCount current') ∧
      LinePosition.walk offset (byteCount (endedLines lines) + byteCount current) (lines.length + 1)
          (byteCount (endedLines lines)) (current ++ rest) rest =
        (lines'.length + 1, byteCount (endedLines lines'), current' ++ rest') := by
  induction rest generalizing lines current with
  | nil => exact ⟨lines, current, [], walked, within, .inl rfl, rfl⟩
  | cons char rest ih =>
      rw [LinePosition.walk]
      by_cases reached : offset ≤ byteCount (endedLines lines) + byteCount current
      · rw [if_pos reached]
        exact ⟨lines, current, char :: rest, walked, within, .inr reached, rfl⟩
      · rw [if_neg reached]
        by_cases feed : char = '\n'
        · subst feed
          rw [if_pos rfl]
          -- the next line begins right behind the line feed, which is one byte wide
          have begins : byteCount (endedLines (lines ++ [current])) =
              byteCount (endedLines lines) + byteCount current + 1 := by
            rw [endedLines_concat, byteCount_append, byteCount_append, ← Nat.add_assoc]
            rfl
          have later := ih walked.feed (by omega)
          rw [begins, List.length_append] at later
          exact later
        · rw [if_neg feed]
          have later := ih (walked.char feed) within
          rw [byteCount_append, ← Nat.add_assoc, List.append_assoc] at later
          exact later

/-- All line feeds in front of the place where a walk stops belong to the whole lines. -/
theorem count_take (walked : Walked chars lines current rest)
    (within : byteCount (endedLines lines) ≤ offset)
    (stops : offset ≤ byteCount (endedLines lines) + byteCount current) :
    ((bytesOf chars).take offset).count feedByte = lines.length := by
  have none : ((bytesOf current).take (offset - byteCount (endedLines lines))).count feedByte = 0 := by
    refine Nat.le_zero.mp (((List.take_sublist _ _).count_le feedByte).trans_eq ?_)
    rw [count_bytesOf, List.count_eq_zero.mpr walked.begun]
  rw [walked.whole, bytesOf_append, bytesOf_append, List.take_append, List.take_of_length_le,
    length_bytesOf, List.take_append_of_le_length, List.count_append, none, count_bytesOf,
    count_endedLines walked.single, Nat.add_zero]
  · rw [length_bytesOf]
    omega
  · rwa [length_bytesOf]

/-- The pieces of the text are the whole lines and then those of what the walk stands in. -/
theorem pieces_eq (walked : Walked chars lines current rest) :
    pieces chars = lines ++ pieces (current ++ rest) :=
  (congrArg pieces walked.whole).trans (pieces_endedLines walked.single _)

theorem getElem?_pieces (walked : Walked chars lines current rest) :
    (pieces chars)[lines.length]? = some ((current ++ rest).takeWhile (· != '\n')) := by
  rw [walked.pieces_eq, List.getElem?_append_right (Nat.le_refl _), Nat.sub_self,
    ← List.head?_eq_getElem?, head?_pieces]

/-- The line that the walk stands in, from its beginning to the next line feed. -/
theorem covers_line (walked : Walked chars lines current rest) :
    let text := (current ++ rest).takeWhile (· != '\n')
    Token.Covers chars ⟨byteCount (endedLines lines), byteCount (endedLines lines) + byteCount text⟩
      (endedLines lines) text ((current ++ rest).dropWhile (· != '\n')) := by
  refine ⟨?_, rfl, rfl⟩
  rw [List.append_assoc, List.takeWhile_append_dropWhile]
  exact walked.whole

end Walked

namespace LinePosition

/-- Where the walk to an offset within a text stops. -/
theorem exists_walked (chars : List Char) (within : offset ≤ byteCount chars) : ∃ lines current rest,
    Walked chars lines current rest ∧ byteCount (endedLines lines) ≤ offset ∧
    offset ≤ byteCount (endedLines lines) + byteCount current ∧
    walk offset 0 1 0 chars chars =
      (lines.length + 1, byteCount (endedLines lines), current ++ rest) := by
  have initial : Walked chars [] [] chars := ⟨rfl, nofun, nofun⟩
  obtain ⟨lines, current, rest, walked, begins, stops, goes⟩ := initial.exists_stop (Nat.zero_le offset)
  refine ⟨lines, current, rest, walked, begins, ?_, goes⟩
  rcases stops with rfl | stops
  · rwa [walked.whole, List.append_nil, byteCount_append] at within
  · exact stops

/-- The place of an offset leads back to it. An offset past the end counts as the end. The number of the
line is one more than there are line feeds among the bytes in front of the offset; the text is the piece
of that number, without a line feed; and the pieces above it with their line feeds and the column make up
the offset. The line begins within the text and not behind the offset, between two characters, and so it
ends. -/
theorem ofOffset_inverts (source : String) (offset : Nat) :
    let place := ofOffset source offset
    let reached := min offset source.utf8ByteSize
    let lines := pieces source.toList
    place.line = 1 + (source.toByteArray.data.toList.take reached).count feedByte ∧
    '\n' ∉ place.text.toList ∧ lines[place.line - 1]? = some place.text.toList ∧ 1 ≤ place.column ∧
    ((lines.take (place.line - 1)).map fun line => byteCount line + 1).sum + (place.column - 1) = reached ∧
    ∃ start front back, walk reached 0 1 0 source.toList source.toList =
        (place.line, start, place.text.toList ++ back) ∧
      source.toList = front ++ (place.text.toList ++ back) ∧ start = byteCount front ∧
      start ≤ reached ∧ (⟨start, start + place.text.utf8ByteSize⟩ : Span).PointsInto source := by
  intro place reached lines
  have size : source.utf8ByteSize = byteCount source.toList := by
    rw [← Token.utf8ByteSize_ofList, String.ofList_toList]
  obtain ⟨above, current, rest, walked, begins, stops, goes⟩ :=
    exists_walked source.toList ((Nat.min_le_right ..).trans_eq size : reached ≤ _)
  -- the text of the line is cut off where the next line feed stands
  let text := (current ++ rest).takeWhile (· != '\n')
  have found : place = ⟨above.length + 1, reached - byteCount (endedLines above) + 1, .ofList text⟩ := by
    simp only [place, ofOffset, ← size]
    rw [goes]
  have cut : text ++ (current ++ rest).dropWhile (· != '\n') = current ++ rest :=
    List.takeWhile_append_dropWhile
  rw [found, String.toList_ofList, Nat.add_sub_cancel, Nat.add_sub_cancel, Token.utf8ByteSize_ofList]
  refine ⟨?_, fun feed => ?_, walked.getElem?_pieces, Nat.le_add_left .., ?_,
    byteCount (endedLines above), endedLines above, (current ++ rest).dropWhile (· != '\n'), ?_, ?_, rfl,
    begins, walked.covers_line.pointsInto⟩
  · rw [toByteArray_eq_bytesOf, walked.count_take begins stops, Nat.add_comm]
  · simpa using List.mem_takeWhile_imp feed
  · have whole : lines.take above.length = above := by
      rw [show lines = _ from walked.pieces_eq, List.take_left]
    rw [whole, ← byteCount_endedLines, Nat.add_sub_cancel' begins]
  · rw [goes, cut]
  · rw [cut]
    exact walked.whole

/-- An offset inside of a character on the second of three lines. -/
example : ofOffset "a\nbé\r\nc" 4 = ⟨2, 3, "bé\r"⟩ := by decide

end LinePosition

end DataClass
