/-
The values of world variables: truth values, 64-bit integers, binary numbers and texts. Values of
different kinds are never equal. Among numbers the sign of a zero is immaterial and the not-a-number
equals itself, so the equality is an equivalence, coarser than being the same term.
-/
import GoalRegression.Binary.Arithmetic
import GoalRegression.Decimal.Layout

namespace GoalRegression

/-- The value of a world variable. -/
inductive Value where
  | bool (b : Bool)
  | int (i : Int64)
  | float (x : Binary64)
  | text (s : String)
deriving DecidableEq

namespace Value

instance : Inhabited Value := ⟨.bool false⟩

/-! ## Equality -/

/-- The representative of a value's class: a zero loses its sign. -/
def canonical : Value → Value
  | float x => float x.unsignedZero
  | v => v

instance : BEq Value := ⟨fun a b => decide (a.canonical = b.canonical)⟩

theorem beq_iff {a b : Value} : (a == b) = true ↔ a.canonical = b.canonical := decide_eq_true_iff

instance : EquivBEq Value where
  rfl := beq_iff.2 rfl
  symm h := beq_iff.2 (beq_iff.1 h).symm
  trans h h' := beq_iff.2 ((beq_iff.1 h).trans (beq_iff.1 h'))

/-! ## Defaults and distance -/

/-- Whether a variable that is not mentioned counts as holding this value: `false` and zero. -/
def isDefault : Value → Bool
  | bool b => !b
  | int i => i == 0
  | float x => x.isZero
  | text _ => false

/-- The difference of two numbers as a share of the larger magnitude. -/
def relativeGap (x y : Binary64) : Binary32 := ((x - y).abs / x.abs.max y.abs).convert

/-- How far two values are apart: nothing if equal, the relative gap of two numbers of one kind, and
one for every other pair. -/
def distance (a b : Value) : Binary32 :=
  if a == b then 0
  else match a, b with
    | int i, int j => relativeGap (.ofInt i.toInt) (.ofInt j.toInt)
    | float x, float y => if x.isFinite && y.isFinite then relativeGap x y else 1
    | _, _ => 1

/-! ## Reading a value as a type -/

def bool? : Value → Option Bool
  | bool b => some b
  | _ => none

def int64? : Value → Option Int64
  | int i => some i
  | _ => none

/-- An integer that fits 32 bits. -/
def int32? : Value → Option Int32
  | int i =>
    if Int32.minValue.toInt ≤ i.toInt ∧ i.toInt ≤ Int32.maxValue.toInt then some i.toInt32 else none
  | _ => none

def double? : Value → Option Binary64
  | float x => some x
  | _ => none

def single? : Value → Option Binary32
  | float x => some x.convert
  | _ => none

def text? : Value → Option String
  | text s => some s
  | _ => none

/-! ## Running text -/

/-- The value as running text shows it; a text stands for itself. -/
def display : Value → String
  | bool b => if b then "true" else "false"
  | int i => toString i.toInt
  | float x => x.display
  | text s => s

end Value

end GoalRegression
