/-
Binary numbers of a format: a single not-a-number, two infinities, and the finite numbers as a sign
and a representable count of units. Zero keeps its sign. Every operation elsewhere computes an exact
quotient and rounds it once with `Binary.round`.
-/
import GoalRegression.Binary.Format

namespace GoalRegression

/-- A number of format `f`. A finite number is a sign and a count of units. -/
inductive Binary (f : Format) where
  | nan
  | infinity (negative : Bool)
  | finite (negative : Bool) (units : Nat) (fits : f.Fits units)
deriving DecidableEq

abbrev Binary32 := Binary .single
abbrev Binary64 := Binary .double

namespace Binary

variable {f : Format}

/-- The representable number nearest to `± num / den` units, halves to even; out of range it is the
infinity of that sign. -/
def round (negative : Bool) (num den : Nat) : Binary f :=
  if h : f.nearest num den < f.limit then .finite negative (f.nearest num den) (f.fits_nearest h)
  else .infinity negative

def zero (negative : Bool) : Binary f := .finite negative 0 f.fits_zero

instance : Inhabited (Binary f) := ⟨zero false⟩
instance : OfNat (Binary f) 0 := ⟨zero false⟩

/-! ## Kinds of numbers -/

def isNaN : Binary f → Bool
  | nan => true
  | _ => false

def isFinite : Binary f → Bool
  | finite .. => true
  | _ => false

def isZero : Binary f → Bool
  | finite _ units _ => units == 0
  | _ => false

/-- The sign bit; the not-a-number has none. -/
def isNegative : Binary f → Bool
  | nan => false
  | infinity negative => negative
  | finite negative _ _ => negative

/-- The same number, with the sign of a zero dropped. Two numbers have one unsigned form exactly when
they are equal, all not-a-numbers being one. -/
def unsignedZero (x : Binary f) : Binary f := if x.isZero then 0 else x

/-! ## Order -/

/-- A finite number's signed count of units. The infinities stand at the ends of the range, and the
not-a-number, which has no place, at zero. -/
def rank : Binary f → Int
  | nan => 0
  | infinity negative => if negative then -(f.limit : Int) else f.limit
  | finite negative units _ => if negative then -(units : Int) else units

/-- Strictly smaller. Nothing compares with the not-a-number. -/
def lt (x y : Binary f) : Bool := !x.isNaN && !y.isNaN && decide (x.rank < y.rank)

/-- The larger of two numbers, the first if neither is. -/
def max (x y : Binary f) : Binary f := if x.lt y then y else x

/-! ## Laws -/

/-- A finite number ranks strictly below the positive infinity. -/
theorem rank_finite_lt {negative : Bool} {units : Nat} {h : f.Fits units} :
    (finite negative units h).rank < (infinity false : Binary f).rank := by
  have := h.2
  cases negative <;> simp only [rank, Bool.false_eq_true, if_true, if_false] <;> omega

theorem isZero_unsignedZero (x : Binary f) : x.unsignedZero.isZero = x.isZero := by
  unfold unsignedZero; split
  · next h => rw [h]; rfl
  · rfl

end Binary

end GoalRegression
