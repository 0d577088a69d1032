namespace DataClass

/-! Floating-point numbers of 64 bits, read from decimals in exact integer arithmetic.

A number is its bit pattern. Apart from the sign bit the pattern is a natural number, the
*rank*, and larger finite ranks stand for larger values: rank `k · 2^52 + m` with `m < 2^53`
stands for `m · 2^(k - 1074)`. Rounding can therefore be written without a case for a
carry into the next exponent.
-/

/-- A binary floating-point number of 64 bits. -/
structure Binary64 where
  bits : UInt64
deriving DecidableEq

namespace Binary64

/-- The bit pattern without the sign. -/
def rank (x : Binary64) : Nat := x.bits.toNat % Nat.pow 2 63

def isNegative (x : Binary64) : Bool := Nat.pow 2 63 ≤ x.bits.toNat

/-- The rank of infinity; the patterns above it are not numbers. -/
def infiniteRank : Nat := 2047 * Nat.pow 2 52

def isFinite (x : Binary64) : Bool := x.rank < infiniteRank

def isNaN (x : Binary64) : Bool := infiniteRank < x.rank

/-- The number with a given rank and a plus sign. -/
def ofRank (rank : Nat) : Binary64 := ⟨UInt64.ofNat rank⟩

/-- The numeric comparison: zeros of either sign are equal, and what is not a number equals
nothing. -/
def same (left right : Binary64) : Bool :=
  !left.isNaN && !right.isNaN &&
    (left.bits == right.bits || (left.rank == 0 && right.rank == 0))

/-- The integer factor of the absolute value of a finite number. -/
def mantissa (x : Binary64) : Nat :=
  if x.rank < Nat.pow 2 52 then x.rank else x.rank % Nat.pow 2 52 + Nat.pow 2 52

/-- How many times the smallest step `2^-1074` has to be doubled to give the step of the
mantissa: the absolute value is `mantissa · 2^(scale - 1074)`. -/
def scale (x : Binary64) : Nat :=
  if x.rank < Nat.pow 2 52 then 0 else x.rank / Nat.pow 2 52 - 1

/-- The absolute value of a finite number as a quotient. -/
def quotient (x : Binary64) : Nat × Nat :=
  (x.mantissa * Nat.pow 2 (x.scale - 1074), Nat.pow 2 (1074 - x.scale))

/-- The nearest whole number to a quotient; a tie goes to the even one. -/
def nearestEven (numerator denominator : Nat) : Nat :=
  let whole := numerator / denominator
  let rest := 2 * (numerator % denominator)
  if rest < denominator then whole
  else if denominator < rest then whole + 1
  else whole + whole % 2

/-- The scale at which the quotient has a mantissa of 53 bits, but never below the smallest. -/
def scaleOfQuotient (numerator denominator : Nat) : Nat :=
  let guess := numerator.log2 + 1022 - denominator.log2
  let fits := denominator * Nat.pow 2 guess ≤ numerator * Nat.pow 2 1022
  if fits then guess else guess - 1

/-- The number nearest to a quotient, ties to the even mantissa, and infinity from half a step
above the largest finite number on. -/
def ofQuotient (numerator denominator : Nat) : Binary64 :=
  if numerator = 0 then ofRank 0
  else
    let scale := scaleOfQuotient numerator denominator
    let mantissa := nearestEven (numerator * Nat.pow 2 (1074 - scale))
      (denominator * Nat.pow 2 (scale - 1074))
    ofRank (min (scale * Nat.pow 2 52 + mantissa) infiniteRank)

end Binary64

end DataClass
