/-
Reading numbers from text: a sign, digits with at most one point and an exponent, or one of the names
of the numbers that have no digits.
-/
import GoalRegression.Decimal.Basic

namespace GoalRegression

namespace Decimal

/-- The number that decimal digit characters spell. -/
def digitsValue (digits : List Char) : Nat := digits.foldl (fun n c => 10 * n + (c.toNat - '0'.toNat)) 0

/-- The decimal with these digits before and after the point, times a power of ten. -/
def ofParts (whole fraction : List Char) (exponent : Int) : Decimal :=
  ⟨digitsValue (whole ++ fraction), exponent - fraction.length⟩

/-- An optional sign: whether it is a minus, and what follows it. -/
def takeSign : List Char → Bool × List Char
  | '-' :: rest => (true, rest)
  | '+' :: rest => (false, rest)
  | rest => (false, rest)

/-- The fraction digits after a point, if there is one, and what follows. -/
def takeFraction : List Char → List Char × List Char
  | '.' :: rest => rest.span Char.isDigit
  | rest => ([], rest)

/-- What follows the digits: nothing, or an exponent with at least one digit. -/
def exponent? : List Char → Option Int
  | [] => some 0
  | c :: rest =>
    let (negative, digits) := takeSign rest
    if (c == 'e' || c == 'E') && !digits.isEmpty && digits.all Char.isDigit then
      some (if negative then -(digitsValue digits : Int) else digitsValue digits)
    else none

/-- A decimal text without its sign; there has to be a digit before or after the point. -/
def ofChars? (chars : List Char) : Option Decimal :=
  let (whole, rest) := chars.span Char.isDigit
  let (fraction, rest) := takeFraction rest
  if whole.isEmpty && fraction.isEmpty then none
  else (exponent? rest).map (ofParts whole fraction)

end Decimal

/-- The number a text denotes, rounded once: a decimal, `inf`, `infinity` or `nan`, in letters of any
case, after an optional sign. -/
def Binary.ofText? {f : Format} (text : String) : Option (Binary f) :=
  let (negative, chars) := Decimal.takeSign text.toList
  let name := String.ofList (chars.map Char.toLower)
  if name = "inf" ∨ name = "infinity" then some (.infinity negative)
  else if name = "nan" then some .nan
  else (Decimal.ofChars? chars).map (Decimal.toBinary negative)

end GoalRegression
