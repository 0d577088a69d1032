import DataClass.Number.Binary64
namespace DataClass

/-! Decimal texts of numbers.

Reading goes from digits to the nearest `Binary64`. Writing takes the fewest digits that read
back as the same number. Whether a decimal reads back is decided by reading it, so the law that
writing and reading undo each other needs no reasoning about intervals.
-/

/-- The value of a run of decimal digits. -/
def digitsValue (digits : List Char) : Nat :=
  digits.foldl (fun value digit => 10 * value + (digit.toNat - '0'.toNat)) 0

/-- A decimal fraction: `digits` shifted `places` digits to the right of the point, or to the
left of it when `places` is negative. -/
structure Decimal where
  digits : Nat
  places : Int
deriving DecidableEq

namespace Decimal

def numerator (decimal : Decimal) : Nat := decimal.digits * Nat.pow 10 (-decimal.places).toNat

def denominator (decimal : Decimal) : Nat := Nat.pow 10 decimal.places.toNat

/-- The floating-point number that the decimal reads as. -/
def toBinary64 (decimal : Decimal) : Binary64 :=
  Binary64.ofQuotient decimal.numerator decimal.denominator

/-- The digits before the point. -/
def wholeDigits (decimal : Decimal) : List Char :=
  Nat.toDigits 10 (decimal.numerator / decimal.denominator)

/-- The digits behind the point, down to the last one that is not zero. -/
def fractionDigits (decimal : Decimal) : List Char :=
  let places := decimal.places.toNat
  let digits := Nat.toDigits 10 (decimal.numerator % decimal.denominator)
  let padded := List.replicate (places - digits.length) '0' ++ digits
  (padded.reverse.dropWhile (· == '0')).reverse

/-- Positional writing, with a point only where digits follow it. -/
def positional (decimal : Decimal) : List Char :=
  match decimal.fractionDigits with
  | [] => decimal.wholeDigits
  | fraction => decimal.wholeDigits ++ '.' :: fraction

/-- The significant digits, without leading and trailing zeros. -/
def significant (decimal : Decimal) : List Char :=
  ((Nat.toDigits 10 decimal.digits).reverse.dropWhile (· == '0')).reverse

/-- The power of ten of the first significant digit. -/
def exponent (decimal : Decimal) : Int :=
  ((Nat.toDigits 10 decimal.digits).length : Int) - 1 - decimal.places

/-- Writing with one digit before the point and a power of ten behind the letter `e`. -/
def scientific (decimal : Decimal) : List Char :=
  let power := (toString decimal.exponent).toList
  match decimal.significant with
  | [] => ['0', 'e', '0']
  | [digit] => digit :: 'e' :: power
  | digit :: rest => digit :: '.' :: rest ++ 'e' :: power

end Decimal

namespace Binary64

/-- The power of ten of the first digit of a positive quotient. -/
def leadingPower (numerator denominator : Nat) : Int :=
  let power : Int := (Nat.toDigits 10 numerator).length - (Nat.toDigits 10 denominator).length
  if denominator * Nat.pow 10 power.toNat ≤ numerator * Nat.pow 10 (-power).toNat then power
  else power - 1

/-- The nearer of the two neighbours of `x` with `count` significant digits, among those that read
back as `x`. Halfway between them the upper one is taken. -/
def withDigits (x : Binary64) (count : Nat) : Option Decimal :=
  let (numerator, denominator) := x.quotient
  let places : Int := count - 1 - leadingPower numerator denominator
  let scaled := numerator * Nat.pow 10 places.toNat
  let unit := denominator * Nat.pow 10 (-places).toNat
  let below : Decimal := ⟨scaled / unit, places⟩
  let above : Decimal := ⟨scaled / unit + 1, places⟩
  let belowReads := below.toBinary64 == ofRank x.rank
  let aboveReads := above.toBinary64 == ofRank x.rank
  if aboveReads && (!belowReads || unit ≤ 2 * (scaled % unit)) then some above
  else if belowReads then some below
  else none

/-- All digits of the absolute value of a finite number. -/
def exactDecimal (x : Binary64) : Decimal :=
  let places := 1074 - x.scale
  ⟨x.mantissa * Nat.pow 2 (x.scale - 1074) * Nat.pow 5 places, places⟩

/-- The decimal with the fewest digits that reads back as the absolute value of `x`. Seventeen
digits are always enough. -/
def shortest (x : Binary64) : Decimal :=
  if x.rank = 0 then ⟨0, 0⟩
  else (((List.range 17).map (· + 1)).findSome? x.withDigits).getD x.exactDecimal

def signText (x : Binary64) : List Char := if x.isNegative then ['-'] else []

/-- The plain text of a number: shortest digits, never a power of ten. -/
def plainText (x : Binary64) : List Char :=
  if x.isNaN then "NaN".toList
  else if x.isFinite then x.signText ++ x.shortest.positional
  else x.signText ++ "inf".toList

/-- The plain text of a finite number, made to hold a point. -/
def pointedText (x : Binary64) : List Char :=
  let text := x.plainText
  if x.isFinite && !text.contains '.' then text ++ ['.', '0'] else text

/-- The text that shows the size of a number: pointed from `1e-4` up to `1e16`, and with a power
of ten outside of this range. -/
def scaledText (x : Binary64) : List Char :=
  let power := x.shortest.exponent
  if x.isFinite && x.rank != 0 && (power < -4 || 16 ≤ power) then
    x.signText ++ x.shortest.scientific
  else x.pointedText

end Binary64

end DataClass
