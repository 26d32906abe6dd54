/-
Decimal numbers: a whole number of digits times a power of ten, without a sign, and the binary number
nearest to one.
-/
import GoalRegression.Binary.Basic

namespace GoalRegression

/-- `digits · 10 ^ exponent`. -/
structure Decimal where
  digits : Nat
  exponent : Int
deriving DecidableEq, Repr

namespace Decimal

/-- The digit characters of the number's whole count, without the zeros it ends in. -/
def significant (d : Decimal) : List Char :=
  ((Nat.toDigits 10 d.digits).reverse.dropWhile (· == '0')).reverse

/-- How many zeros the digit characters end in. -/
def trailingZeros (d : Decimal) : Nat := ((Nat.toDigits 10 d.digits).reverse.takeWhile (· == '0')).length

/-- The power of ten that the last significant digit stands for. -/
def lastExponent (d : Decimal) : Int := d.exponent + d.trailingZeros

/-- The power of ten that the first significant digit stands for. -/
def leadExponent (d : Decimal) : Int := d.lastExponent + d.significant.length - 1

/-- The binary number nearest to `± d`, halves to even. Exponents far outside the format's range are
settled without forming the power of ten: `10 ^ n` is at least `2 ^ n`. -/
def toBinary {f : Format} (negative : Bool) (d : Decimal) : Binary f :=
  if d.digits = 0 then .zero negative
  else if (f.width : Int) ≤ d.exponent then .infinity negative
  else if (d.digits.log2 + 2 + f.fractionBits : Nat) ≤ -d.exponent then .zero negative
  else .round negative (d.digits * Nat.pow 10 d.exponent.toNat * f.one) (Nat.pow 10 (-d.exponent).toNat)

end Decimal

end GoalRegression
