import DataClass.Number.Decimal
import Mathlib.Algebra.Order.Ring.Nat
namespace DataClass.Binary64

/-! Rounding a quotient depends on its value only (`ofQuotient_congr`), and the quotient of a finite
number is rounded to that number (`ofQuotient_quotient`). -/

theorem rank_eq (x : Binary64) : x.rank = x.bits.toNat % 2 ^ 63 := rfl

theorem isNegative_eq (x : Binary64) : x.isNegative = decide (2 ^ 63 ≤ x.bits.toNat) := rfl

theorem mantissa_eq (x : Binary64) :
    x.mantissa = if x.rank < 2 ^ 52 then x.rank else x.rank % 2 ^ 52 + 2 ^ 52 := rfl

theorem scale_eq (x : Binary64) :
    x.scale = if x.rank < 2 ^ 52 then 0 else x.rank / 2 ^ 52 - 1 := rfl

theorem quotient_fst (x : Binary64) : x.quotient.1 = x.mantissa * 2 ^ (x.scale - 1074) := rfl

theorem quotient_snd (x : Binary64) : x.quotient.2 = 2 ^ (1074 - x.scale) := rfl

theorem scaleOfQuotient_eq (numerator denominator : Nat) :
    scaleOfQuotient numerator denominator =
      if denominator * 2 ^ (numerator.log2 + 1022 - denominator.log2) ≤ numerator * 2 ^ 1022 then
        numerator.log2 + 1022 - denominator.log2
      else numerator.log2 + 1022 - denominator.log2 - 1 := rfl

theorem ofQuotient_eq (numerator denominator : Nat) :
    ofQuotient numerator denominator =
      if numerator = 0 then ofRank 0
      else ofRank (min (scaleOfQuotient numerator denominator * 2 ^ 52 +
        nearestEven (numerator * 2 ^ (1074 - scaleOfQuotient numerator denominator))
          (denominator * 2 ^ (scaleOfQuotient numerator denominator - 1074))) infiniteRank) := rfl

theorem nearestEven_mul (numerator denominator : Nat) {factor : Nat} (positive : 0 < factor) :
    nearestEven (numerator * factor) (denominator * factor) = nearestEven numerator denominator := by
  have rest : 2 * (numerator * factor % (denominator * factor)) =
      2 * (numerator % denominator) * factor := by
    rw [Nat.mul_mod_mul_right, Nat.mul_assoc]
  simp only [nearestEven, Nat.mul_div_mul_right _ _ positive, rest,
    Nat.mul_lt_mul_right positive]

theorem nearestEven_congr {first second third fourth : Nat} (left : 0 < second) (right : 0 < fourth)
    (same : first * fourth = third * second) :
    nearestEven first second = nearestEven third fourth := by
  rw [← nearestEven_mul first second right, ← nearestEven_mul third fourth left, same,
    Nat.mul_comm second]

theorem nearestEven_one (whole : Nat) : nearestEven whole 1 = whole := by
  simp [nearestEven, Nat.mod_one]

/-- The scale of a quotient said without logarithms: the quotient has at most 53 bits before the
point at this scale, and 53 of them unless the scale is the smallest. -/
def IsScale (numerator denominator scale : Nat) : Prop :=
  (scale = 0 ∨ denominator * 2 ^ scale ≤ numerator * 2 ^ 1022) ∧
    numerator * 2 ^ 1022 < denominator * 2 ^ (scale + 1)

theorem isScale_scaleOfQuotient {numerator denominator : Nat} (above : 0 < numerator)
    (below : 0 < denominator) :
    IsScale numerator denominator (scaleOfQuotient numerator denominator) := by
  have numeratorLow := Nat.log2_self_le (Nat.ne_of_gt above)
  have numeratorHigh : numerator < 2 ^ (numerator.log2 + 1) := Nat.lt_log2_self
  have denominatorLow := Nat.log2_self_le (Nat.ne_of_gt below)
  have denominatorHigh : denominator < 2 ^ (denominator.log2 + 1) := Nat.lt_log2_self
  rw [scaleOfQuotient_eq]
  generalize numerator.log2 = top at *
  generalize denominator.log2 = bottom at *
  by_cases fits : denominator * 2 ^ (top + 1022 - bottom) ≤ numerator * 2 ^ 1022
  · simp only [fits, if_true]
    refine ⟨.inr fits, ?_⟩
    calc numerator * 2 ^ 1022
        < 2 ^ (top + 1) * 2 ^ 1022 := Nat.mul_lt_mul_of_pos_right numeratorHigh (Nat.two_pow_pos _)
      _ = 2 ^ (top + 1 + 1022) := (Nat.pow_add ..).symm
      _ ≤ 2 ^ (bottom + (top + 1022 - bottom + 1)) := Nat.pow_le_pow_right (by decide) (by omega)
      _ = 2 ^ bottom * 2 ^ (top + 1022 - bottom + 1) := Nat.pow_add ..
      _ ≤ denominator * 2 ^ (top + 1022 - bottom + 1) := Nat.mul_le_mul_right _ denominatorLow
  · simp only [fits, if_false]
    have small := Nat.lt_of_not_le fits
    cases guess : top + 1022 - bottom with
    | zero =>
        rw [guess] at small
        exact ⟨.inl rfl, Nat.lt_of_lt_of_le small
          (Nat.mul_le_mul_left _ (Nat.pow_le_pow_right (by decide) (by omega)))⟩
    | succ scale =>
        rw [guess] at small
        refine ⟨.inr ?_, small⟩
        calc denominator * 2 ^ scale
            ≤ 2 ^ (bottom + 1) * 2 ^ scale := Nat.mul_le_mul_right _ (Nat.le_of_lt denominatorHigh)
          _ = 2 ^ (bottom + 1 + scale) := (Nat.pow_add ..).symm
          _ = 2 ^ (top + 1022) := by congr 1; omega
          _ = 2 ^ top * 2 ^ 1022 := Nat.pow_add ..
          _ ≤ numerator * 2 ^ 1022 := Nat.mul_le_mul_right _ numeratorLow

theorem IsScale.unique {numerator denominator first second : Nat}
    (left : IsScale numerator denominator first) (right : IsScale numerator denominator second) :
    first = second := by
  have ordered {low high : Nat} (lower : IsScale numerator denominator low)
      (upper : IsScale numerator denominator high) : high ≤ low := by
    rcases upper.1 with rfl | fits
    · exact Nat.zero_le _
    · have powers := Nat.lt_of_mul_lt_mul_left (Nat.lt_of_le_of_lt fits lower.2)
      have exponents := (Nat.pow_lt_pow_iff_right (by decide)).mp powers
      omega
  exact Nat.le_antisymm (ordered right left) (ordered left right)

theorem IsScale.congr {first second third fourth scale : Nat} (left : 0 < second)
    (right : 0 < fourth) (same : first * fourth = third * second)
    (isScale : IsScale first second scale) : IsScale third fourth scale := by
  have cross (power : Nat) : fourth * power * second = second * power * fourth := by
    rw [Nat.mul_right_comm, Nat.mul_comm fourth second, Nat.mul_right_comm]
  have value : third * 2 ^ 1022 * second = first * 2 ^ 1022 * fourth := by
    rw [Nat.mul_right_comm, ← same, Nat.mul_right_comm]
  refine ⟨isScale.1.imp_right fun fits => ?_, ?_⟩
  · refine Nat.le_of_mul_le_mul_right (c := second) ?_ left
    rw [cross, value]
    exact Nat.mul_le_mul_right _ fits
  · apply Nat.lt_of_mul_lt_mul_right (a := second)
    rw [cross, value]
    exact Nat.mul_lt_mul_of_pos_right isScale.2 right

/-- Quotients of the same value are rounded to the same number. -/
theorem ofQuotient_congr {first second third fourth : Nat} (left : 0 < second) (right : 0 < fourth)
    (same : first * fourth = third * second) :
    ofQuotient first second = ofQuotient third fourth := by
  by_cases zero : first = 0
  · have alsoZero : third = 0 := by
      rw [zero, Nat.zero_mul] at same
      exact (Nat.mul_eq_zero.mp same.symm).resolve_right (Nat.ne_of_gt left)
    simp [ofQuotient_eq, zero, alsoZero]
  · have positive : 0 < third := by
      apply Nat.pos_of_ne_zero
      rintro rfl
      rw [Nat.zero_mul] at same
      rcases Nat.mul_eq_zero.mp same with first | fourth
      · exact zero first
      · exact Nat.ne_of_gt right fourth
    have scale : scaleOfQuotient first second = scaleOfQuotient third fourth :=
      IsScale.unique
        ((isScale_scaleOfQuotient (Nat.pos_of_ne_zero zero) left).congr left right same)
        (isScale_scaleOfQuotient positive right)
    have mantissa (high low : Nat) :
        nearestEven (first * high) (second * low) = nearestEven (third * high) (fourth * low) ∨
          low = 0 := by
      rcases Nat.eq_zero_or_pos low with none | some
      · exact .inr none
      · refine .inl (nearestEven_congr (Nat.mul_pos left some) (Nat.mul_pos right some) ?_)
        calc first * high * (fourth * low) = first * fourth * (high * low) := by ac_rfl
          _ = third * second * (high * low) := by rw [same]
          _ = third * high * (second * low) := by ac_rfl
    have rounded := (mantissa (2 ^ (1074 - scaleOfQuotient third fourth))
      (2 ^ (scaleOfQuotient third fourth - 1074))).resolve_right (Nat.ne_of_gt (Nat.two_pow_pos _))
    simp only [ofQuotient_eq, zero, Nat.ne_of_gt positive, if_false, scale, rounded]

theorem mantissa_lt (x : Binary64) : x.mantissa < 2 ^ 53 := by
  rw [mantissa_eq]
  split <;> omega

theorem le_mantissa_of_scale {x : Binary64} (scaled : x.scale ≠ 0) : 2 ^ 52 ≤ x.mantissa := by
  rw [scale_eq] at scaled
  rw [mantissa_eq]
  split
  · next small =>
      rw [if_pos small] at scaled
      exact absurd rfl scaled
  · omega

theorem scale_mantissa (x : Binary64) : x.scale * 2 ^ 52 + x.mantissa = x.rank := by
  rw [scale_eq, mantissa_eq]
  split <;> omega

theorem isScale_quotient (x : Binary64) :
    IsScale x.quotient.1 x.quotient.2 x.scale := by
  rw [IsScale, quotient_fst, quotient_snd]
  refine ⟨?_, ?_⟩
  · by_cases smallest : x.scale = 0
    · exact .inl smallest
    · have exponents : 1074 - x.scale + x.scale = 52 + (x.scale - 1074) + 1022 := by omega
      refine .inr ?_
      calc 2 ^ (1074 - x.scale) * 2 ^ x.scale
          = 2 ^ (52 + (x.scale - 1074) + 1022) := by rw [← Nat.pow_add, exponents]
        _ = 2 ^ 52 * 2 ^ (x.scale - 1074) * 2 ^ 1022 := by
            rw [← Nat.pow_add 2 52 (x.scale - 1074), ← Nat.pow_add 2 _ 1022]
        _ ≤ x.mantissa * 2 ^ (x.scale - 1074) * 2 ^ 1022 :=
            Nat.mul_le_mul_right _ (Nat.mul_le_mul_right _ (le_mantissa_of_scale smallest))
  · calc x.mantissa * 2 ^ (x.scale - 1074) * 2 ^ 1022
        < 2 ^ 53 * 2 ^ (x.scale - 1074) * 2 ^ 1022 :=
          Nat.mul_lt_mul_of_pos_right
            (Nat.mul_lt_mul_of_pos_right x.mantissa_lt (Nat.two_pow_pos _)) (Nat.two_pow_pos _)
      _ = 2 ^ (53 + (x.scale - 1074) + 1022) := by
          rw [← Nat.pow_add 2 53 (x.scale - 1074), ← Nat.pow_add 2 _ 1022]
      _ ≤ 2 ^ (1074 - x.scale + (x.scale + 1)) := Nat.pow_le_pow_right (by decide) (by omega)
      _ = 2 ^ (1074 - x.scale) * 2 ^ (x.scale + 1) := Nat.pow_add ..

/-- A finite number is what its own value is rounded to. -/
theorem ofQuotient_quotient {x : Binary64} (finite : x.isFinite = true) (positive : x.rank ≠ 0) :
    ofQuotient x.quotient.1 x.quotient.2 = ofRank x.rank := by
  have mantissaPositive : x.mantissa ≠ 0 := by
    intro zero
    by_cases smallest : x.scale = 0
    · have := x.scale_mantissa
      omega
    · have := le_mantissa_of_scale smallest
      omega
  have numerator : x.quotient.1 ≠ 0 :=
    Nat.mul_ne_zero mantissaPositive (Nat.ne_of_gt (Nat.two_pow_pos _))
  have denominator : 0 < x.quotient.2 := Nat.two_pow_pos _
  have scale : scaleOfQuotient x.quotient.1 x.quotient.2 = x.scale :=
    IsScale.unique (isScale_scaleOfQuotient (Nat.pos_of_ne_zero numerator) denominator)
      x.isScale_quotient
  have rounded : nearestEven (x.quotient.1 * 2 ^ (1074 - x.scale))
      (x.quotient.2 * 2 ^ (x.scale - 1074)) = x.mantissa := by
    have whole : x.quotient.1 * 2 ^ (1074 - x.scale) =
        x.mantissa * (2 ^ (1074 - x.scale) * 2 ^ (x.scale - 1074)) := by
      rw [quotient_fst, Nat.mul_assoc, Nat.mul_comm (2 ^ (x.scale - 1074))]
    have unit : x.quotient.2 * 2 ^ (x.scale - 1074) =
        1 * (2 ^ (1074 - x.scale) * 2 ^ (x.scale - 1074)) := by
      rw [quotient_snd, Nat.one_mul]
    rw [whole, unit, nearestEven_mul _ _ (Nat.mul_pos (Nat.two_pow_pos _) (Nat.two_pow_pos _)),
      nearestEven_one]
  have bound : x.rank ≤ infiniteRank := Nat.le_of_lt (of_decide_eq_true finite)
  simp only [ofQuotient_eq, numerator, if_false, scale, rounded, scale_mantissa,
    Nat.min_eq_left bound]

end DataClass.Binary64
