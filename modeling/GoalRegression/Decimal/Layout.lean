/-
How binary numbers are written: the digits are the shortest that read back, and a `Layout` settles
the layout around them.
-/
import GoalRegression.Decimal.Shortest

namespace GoalRegression

structure Layout where
  /-- The exponents of the leading digit, from and below, that are written positionally; `none` for all
  of them. -/
  positional : Option (Int × Int)
  /-- Whether a whole number written positionally ends in `.0`. -/
  pointZero : Bool
  /-- Whether a positive exponent has a plus sign. -/
  plusSign : Bool
  tie : Tie

namespace Layout

variable (layout : Layout)

/-- Whether a leading digit at this exponent is written positionally. -/
def isPositional (lead : Int) : Bool :=
  match layout.positional with
  | none => true
  | some (from_, below) => decide (from_ ≤ lead) && decide (lead < below)

/-- Digits of which the last stands for `10 ^ last`, written positionally. -/
def plain (digits : List Char) (last : Int) : List Char :=
  if 0 ≤ last then
    digits ++ List.replicate last.toNat '0' ++ (if layout.pointZero then ['.', '0'] else [])
  else
    let whole := digits.length + last
    if 0 < whole then digits.take whole.toNat ++ '.' :: digits.drop whole.toNat
    else '0' :: '.' :: List.replicate (-whole).toNat '0' ++ digits

/-- Digits of which the first stands for `10 ^ lead`, with an exponent. -/
def scientific (digits : List Char) (lead : Int) : List Char :=
  let fraction := digits.drop 1
  let sign := if lead < 0 then ['-'] else if layout.plusSign then ['+'] else []
  digits.take 1 ++ (if fraction.isEmpty then [] else '.' :: fraction) ++
    'e' :: sign ++ Nat.toDigits 10 lead.natAbs

def decimal (d : Decimal) : List Char :=
  if layout.isPositional d.leadExponent then layout.plain d.significant d.lastExponent
  else layout.scientific d.significant d.leadExponent

/-- The characters of a finite number with this sign and count of units. -/
def finite (f : Format) (negative : Bool) (units : Nat) : List Char :=
  let magnitude := if units = 0 then layout.plain ['0'] 0 else layout.decimal (f.shortest layout.tie units)
  if negative then '-' :: magnitude else magnitude

def render {f : Format} : Binary f → String
  | .nan => "NaN"
  | .infinity negative => if negative then "-inf" else "inf"
  | .finite negative units _ => String.ofList (layout.finite f negative units)

end Layout

/-- Numbers in running text: positional at every size, whole numbers without a point. -/
def Layout.display : Layout :=
  { positional := none, pointZero := false, plusSign := false, tie := .upper }

/-- Numbers in inspection text: a point always, an exponent below `0.0001` and from `10 ^ 16` on. -/
def Layout.inspection : Layout :=
  { positional := some (-4, 16), pointZero := true, plusSign := false, tie := .upper }

/-- Numbers in JSON text: a point always, a signed exponent below `0.00001` and from `10 ^ 16` on. -/
def Layout.json : Layout :=
  { positional := some (-5, 16), pointZero := true, plusSign := true, tie := .even }

def Binary.display {f : Format} (x : Binary f) : String := Layout.display.render x

end GoalRegression
