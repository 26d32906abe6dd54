/-
The shortest decimal of a binary number: among the decimals that read back as the number, one with the
fewest digits, and of those the nearest. The number's exact decimal expansion ends after
`f.fractionBits` places, so everything is decided on whole counts of the last place: a grid of step
`10 ^ j` has two points next to the number, the coarsest grid on which one of them reads back is taken,
and on the grid of step one the number itself is such a point.
-/
import GoalRegression.Decimal.Basic

namespace GoalRegression

/-- Which of two equally near decimals is taken: the larger one, or the one with the even digit. -/
inductive Tie where
  | upper
  | even
deriving DecidableEq, Repr

namespace Format

variable (f : Format)

/-- A unit, counted in the last place of its decimal expansion: two to a negative power is five to the
positive one, moved by as many places. -/
def placesPerUnit : Nat := Nat.pow 5 f.fractionBits

/-- The exact expansion of a count of units, counted in its last decimal place. -/
def expansion (units : Nat) : Nat := units * f.placesPerUnit

/-- Whether a decimal, counted in the last place, reads back as the count `units`. -/
def readsBack (units places : Nat) : Bool := f.nearest places f.placesPerUnit == units

/-- The multiple of `step` next to the number that reads back as it: of two, the nearer, and of two as
near the one that `tie` names. -/
def gridPoint? (tie : Tie) (units step : Nat) : Option Nat :=
  let exact := f.expansion units
  let below := exact / step
  match f.readsBack units (below * step), f.readsBack units ((below + 1) * step) with
  | true, true =>
    match compare (2 * exact) ((2 * below + 1) * step), tie with
    | .lt, _ => some below
    | .gt, _ => some (below + 1)
    | .eq, .upper => some (below + 1)
    | .eq, .even => some (below + below % 2)
  | true, false => some below
  | false, true => some (below + 1)
  | false, false => none

/-- The grid point of the coarsest grid of step at most `10 ^ j` that has one. -/
def shortestFrom (tie : Tie) (units : Nat) : Nat → Decimal
  | 0 => ⟨f.expansion units, -f.fractionBits⟩
  | j + 1 =>
    match f.gridPoint? tie units (Nat.pow 10 (j + 1)) with
    | some n => ⟨n, (j + 1 : Nat) - (f.fractionBits : Int)⟩
    | none => shortestFrom tie units j

/-- The shortest decimal that reads back as the count `units`. The first grid tried is that of the
leading digit. -/
def shortest (tie : Tie) (units : Nat) : Decimal :=
  f.shortestFrom tie units ((Nat.toDigits 10 (f.expansion units)).length - 1)

end Format

end GoalRegression
