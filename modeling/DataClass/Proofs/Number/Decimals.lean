import DataClass.Proofs.Number.Rounding
namespace DataClass

/-! A finite number that is not negative is written as digits, a point and digits
(`pointedText_eq`), and these digits are read as the same number (`pointedDigits_read`). -/

def AllDigits (chars : List Char) : Prop := ∀ char ∈ chars, char.isDigit = true

theorem digitsValue_append (left right : List Char) :
    digitsValue (left ++ right) = digitsValue left * 10 ^ right.length + digitsValue right := by
  change Nat.ofDigitChars 10 (left ++ right) 0 = Nat.ofDigitChars 10 left 0 * _ + _
  rw [Nat.ofDigitChars_append, Nat.ofDigitChars_eq_ofDigitChars_zero, Nat.mul_comm]
  rfl

theorem digitsValue_toDigits (value : Nat) : digitsValue (Nat.toDigits 10 value) = value :=
  Nat.ofDigitChars_ten_toDigits

theorem digitsValue_zeros (count : Nat) : digitsValue (List.replicate count '0') = 0 := by
  change Nat.ofDigitChars 10 _ 0 = 0
  simp

theorem allDigits_toDigits (value : Nat) : AllDigits (Nat.toDigits 10 value) :=
  fun _ inside => Nat.isDigit_of_mem_toDigits (by decide) (by decide) inside

theorem exists_zeros (digits : List Char) :
    ∃ count, digits =
      (digits.reverse.dropWhile (· == '0')).reverse ++ List.replicate count '0' := by
  have zeros : digits.reverse.takeWhile (· == '0') =
      List.replicate (digits.reverse.takeWhile (· == '0')).length '0' :=
    List.eq_replicate_of_mem fun char inside =>
      eq_of_beq (List.all_eq_true.mp List.all_takeWhile char inside)
  refine ⟨(digits.reverse.takeWhile (· == '0')).length, ?_⟩
  calc digits = digits.reverse.reverse := (List.reverse_reverse digits).symm
    _ = (digits.reverse.takeWhile (· == '0') ++ digits.reverse.dropWhile (· == '0')).reverse := by
        rw [List.takeWhile_append_dropWhile]
    _ = _ := by
        rw [List.reverse_append]
        conv => lhs; rw [zeros, List.reverse_replicate]

namespace Decimal

theorem toBinary64_congr {left right : Decimal}
    (same : left.numerator * right.denominator = right.numerator * left.denominator) :
    left.toBinary64 = right.toBinary64 :=
  Binary64.ofQuotient_congr (Nat.pow_pos (by decide)) (Nat.pow_pos (by decide)) same

theorem allDigits_wholeDigits (decimal : Decimal) : AllDigits decimal.wholeDigits :=
  allDigits_toDigits _

theorem wholeDigits_ne_nil (decimal : Decimal) : decimal.wholeDigits ≠ [] := Nat.toDigits_ne_nil

theorem allDigits_fractionDigits (decimal : Decimal) : AllDigits decimal.fractionDigits := by
  intro char inside
  have padded := List.mem_reverse.mp
    ((List.dropWhile_sublist (· == '0')).subset (List.mem_reverse.mp inside))
  rcases List.mem_append.mp padded with zero | digit
  · rw [List.eq_of_mem_replicate zero]
    rfl
  · exact allDigits_toDigits _ char digit

/-- The digits behind the point stand for the part of the value behind the point. -/
theorem digitsValue_fractionDigits (decimal : Decimal) :
    decimal.numerator % decimal.denominator * 10 ^ decimal.fractionDigits.length =
      digitsValue decimal.fractionDigits * decimal.denominator := by
  have below : decimal.numerator % decimal.denominator < 10 ^ decimal.places.toNat :=
    Nat.mod_lt _ (Nat.pow_pos (by decide))
  unfold fractionDigits
  generalize decimal.numerator % decimal.denominator = fraction at below ⊢
  rw [show decimal.denominator = 10 ^ decimal.places.toNat from rfl]
  generalize decimal.places.toNat = places at below ⊢
  dsimp only
  generalize whole : List.replicate (places - (Nat.toDigits 10 fraction).length) '0' ++
    Nat.toDigits 10 fraction = padded
  obtain ⟨count, split⟩ := exists_zeros padded
  have value : fraction =
      digitsValue (padded.reverse.dropWhile (· == '0')).reverse * 10 ^ count := by
    have total : digitsValue padded = fraction := by
      rw [← whole, digitsValue_append, digitsValue_zeros, digitsValue_toDigits]
      omega
    rw [← total]
    conv => lhs; rw [split]
    rw [digitsValue_append, digitsValue_zeros, List.length_replicate, Nat.add_zero]
  have length : padded.length =
      (padded.reverse.dropWhile (· == '0')).reverse.length + count := by
    conv => lhs; rw [split]
    rw [List.length_append, List.length_replicate]
  generalize (padded.reverse.dropWhile (· == '0')).reverse = kept at value length
  rcases Nat.eq_zero_or_pos places with none | some
  · have zero : fraction = 0 := by
      rw [none] at below
      omega
    have noValue : digitsValue kept = 0 := by
      rw [zero] at value
      exact (Nat.mul_eq_zero.mp value.symm).resolve_right (Nat.ne_of_gt (Nat.pow_pos (by decide)))
    simp [zero, noValue]
  · have short := (Nat.length_toDigits_le_iff (by decide) some).mpr below
    have full : padded.length = places := by
      rw [← whole, List.length_append, List.length_replicate]
      omega
    rw [value, Nat.mul_assoc, ← Nat.pow_add, ← full, length, Nat.add_comm count]

/-- The digits behind the point, at least one. -/
def pointDigits (decimal : Decimal) : List Char :=
  if decimal.fractionDigits = [] then ['0'] else decimal.fractionDigits

theorem pointDigits_ne_nil (decimal : Decimal) : decimal.pointDigits ≠ [] := by
  unfold pointDigits
  split
  · simp
  · assumption

theorem allDigits_pointDigits (decimal : Decimal) : AllDigits decimal.pointDigits := by
  unfold pointDigits
  split
  · intro char zero
    rw [List.mem_singleton.mp zero]
    rfl
  · exact decimal.allDigits_fractionDigits

theorem digitsValue_pointDigits (decimal : Decimal) :
    decimal.numerator % decimal.denominator * 10 ^ decimal.pointDigits.length =
      digitsValue decimal.pointDigits * decimal.denominator := by
  have fraction := decimal.digitsValue_fractionDigits
  unfold pointDigits
  split
  · next none =>
      have zero : decimal.numerator % decimal.denominator = 0 := by
        rw [none] at fraction
        simpa [digitsValue] using fraction
      simp [zero, digitsValue]
  · exact fraction

theorem toBinary64_pointDigits (decimal : Decimal) :
    (⟨digitsValue (decimal.wholeDigits ++ decimal.pointDigits), decimal.pointDigits.length⟩ :
      Decimal).toBinary64 = decimal.toBinary64 := by
  apply toBinary64_congr
  have digits := decimal.digitsValue_pointDigits
  have parts := Nat.div_add_mod decimal.numerator decimal.denominator
  have whole : digitsValue decimal.wholeDigits = decimal.numerator / decimal.denominator :=
    digitsValue_toDigits _
  have read (value places : Nat) : (⟨value, places⟩ : Decimal).numerator = value ∧
      (⟨value, places⟩ : Decimal).denominator = 10 ^ places := by
    simp [numerator, denominator]
  rw [(read _ _).1, (read _ _).2, digitsValue_append, whole, Nat.add_mul, ← digits]
  conv => rhs; rw [← parts]
  rw [Nat.add_mul, Nat.mul_right_comm, Nat.mul_comm (decimal.numerator / decimal.denominator)]

end Decimal

namespace Binary64

theorem toBinary64_of_withDigits {x : Binary64} {count : Nat} {decimal : Decimal}
    (found : x.withDigits count = some decimal) : decimal.toBinary64 = ofRank x.rank := by
  simp only [withDigits] at found
  split at found
  · next chosen =>
      cases found
      exact eq_of_beq (Bool.and_eq_true_iff.mp chosen).1
  · split at found
    · next chosen =>
        cases found
        exact eq_of_beq chosen
    · cases found

theorem toBinary64_exactDecimal {x : Binary64} (finite : x.isFinite = true)
    (positive : x.rank ≠ 0) : x.exactDecimal.toBinary64 = ofRank x.rank := by
  rw [← ofQuotient_quotient finite positive, quotient_fst, quotient_snd]
  refine ofQuotient_congr (Nat.pow_pos (by decide)) (Nat.two_pow_pos _) ?_
  have tens : 10 ^ (1074 - x.scale) = 5 ^ (1074 - x.scale) * 2 ^ (1074 - x.scale) := by
    rw [← Nat.mul_pow]
  simp only [Decimal.numerator, Decimal.denominator, exactDecimal, Int.toNat_natCast, Nat.pow_eq]
  rw [tens]
  simp [Nat.mul_assoc]

/-- The decimal that is written for a finite number reads back as its absolute value. -/
theorem toBinary64_shortest {x : Binary64} (finite : x.isFinite = true) :
    x.shortest.toBinary64 = ofRank x.rank := by
  unfold shortest
  split
  · next zero =>
      rw [zero]
      rfl
  · next positive =>
      cases found : ((List.range 17).map (· + 1)).findSome? x.withDigits with
      | none => exact toBinary64_exactDecimal finite positive
      | some decimal =>
          obtain ⟨count, _, chosen⟩ := List.exists_of_findSome?_eq_some found
          exact toBinary64_of_withDigits chosen

/-- Numbers that can be read: no sign, and not beyond infinity. -/
def IsLiteral (x : Binary64) : Prop := ∃ rank ≤ infiniteRank, x = ofRank rank

theorem isLiteral_ofQuotient (numerator denominator : Nat) :
    (ofQuotient numerator denominator).IsLiteral := by
  unfold ofQuotient
  split
  · exact ⟨0, Nat.zero_le _, rfl⟩
  · exact ⟨_, Nat.min_le_right _ _, rfl⟩

theorem rank_ofRank {rank : Nat} (bound : rank ≤ infiniteRank) : (ofRank rank).rank = rank := by
  have small : infiniteRank < 2 ^ 63 := by decide
  have bits : (UInt64.ofNat rank).toNat = rank := by
    rw [UInt64.toNat_ofNat']
    exact Nat.mod_eq_of_lt (by omega)
  rw [rank_eq, ofRank, bits]
  exact Nat.mod_eq_of_lt (by omega)

namespace IsLiteral

variable {x : Binary64}

theorem ofRank_rank (literal : x.IsLiteral) : ofRank x.rank = x := by
  obtain ⟨rank, bound, rfl⟩ := literal
  rw [rank_ofRank bound]

theorem rank_le (literal : x.IsLiteral) : x.rank ≤ infiniteRank := by
  obtain ⟨rank, bound, rfl⟩ := literal
  rwa [rank_ofRank bound]

theorem isNegative (literal : x.IsLiteral) : x.isNegative = false := by
  obtain ⟨rank, bound, rfl⟩ := literal
  have small : infiniteRank < 2 ^ 63 := by decide
  have bits : (UInt64.ofNat rank).toNat = rank := by
    rw [UInt64.toNat_ofNat']
    exact Nat.mod_eq_of_lt (by omega)
  rw [isNegative_eq, ofRank, bits, decide_eq_false_iff_not]
  omega

theorem isNaN (literal : x.IsLiteral) : x.isNaN = false := by
  simpa [Binary64.isNaN] using literal.rank_le

end IsLiteral

theorem not_mem_of_allDigits {chars : List Char} (digits : AllDigits chars) : '.' ∉ chars := by
  intro inside
  have point := digits '.' inside
  simp at point

/-- A finite literal is written as digits, a point and digits. -/
theorem pointedText_eq {x : Binary64} (literal : x.IsLiteral) (finite : x.isFinite = true) :
    x.pointedText = x.shortest.wholeDigits ++ '.' :: x.shortest.pointDigits := by
  have plain : x.plainText = x.shortest.positional := by
    simp [plainText, literal.isNaN, finite, signText, literal.isNegative]
  have whole := not_mem_of_allDigits x.shortest.allDigits_wholeDigits
  simp only [pointedText, plain, Decimal.positional, Decimal.pointDigits]
  cases fraction : x.shortest.fractionDigits with
  | nil => simp [finite, whole]
  | cons first rest => simp

theorem pointedDigits_read {x : Binary64} (literal : x.IsLiteral) (finite : x.isFinite = true) :
    (⟨digitsValue (x.shortest.wholeDigits ++ x.shortest.pointDigits),
      x.shortest.pointDigits.length⟩ : Decimal).toBinary64 = x := by
  rw [Decimal.toBinary64_pointDigits, toBinary64_shortest finite, literal.ofRank_rank]

/-- Infinity is the only literal that is not written in digits. -/
theorem pointedText_of_infinite {x : Binary64} (literal : x.IsLiteral)
    (infinite : x.isFinite = false) : x.pointedText = "inf".toList := by
  have plain : x.plainText = "inf".toList := by
    simp [plainText, literal.isNaN, infinite, signText, literal.isNegative]
  simp [pointedText, plain, infinite]

end Binary64

end DataClass
