/-
Arithmetic on binary numbers: each operation is the exact result, rounded once. Also the change of
format, numbers of integers, the integer part, and integer powers by repeated squaring.
-/
import GoalRegression.Binary.Basic

namespace GoalRegression.Binary

variable {f : Format}

/-! ## The four operations -/

protected def neg : Binary f → Binary f
  | nan => nan
  | infinity s => infinity (!s)
  | finite s m h => finite (!s) m h

def abs : Binary f → Binary f
  | nan => nan
  | infinity _ => infinity false
  | finite _ m h => finite false m h

/-- The sum. Two zeros that cancel give the negative zero only if both were negative. -/
protected def add : Binary f → Binary f → Binary f
  | nan, _ => nan
  | _, nan => nan
  | infinity s, infinity t => if s = t then infinity s else nan
  | infinity s, finite .. => infinity s
  | finite .., infinity t => infinity t
  | finite s m hm, finite t n hn =>
    let sum := (finite s m hm).rank + (finite t n hn).rank
    if sum = 0 then zero (s && t) else round (decide (sum < 0)) sum.natAbs 1

protected def sub (x y : Binary f) : Binary f := x.add y.neg

/-- The product. Zero times infinity is no number. -/
protected def mul : Binary f → Binary f → Binary f
  | nan, _ => nan
  | _, nan => nan
  | infinity s, infinity t => infinity (s ^^ t)
  | infinity s, finite t n _ => if n = 0 then nan else infinity (s ^^ t)
  | finite s m _, infinity t => if m = 0 then nan else infinity (s ^^ t)
  | finite s m _, finite t n _ => round (s ^^ t) (m * n) f.one

/-- The quotient. A number divided by zero is infinite, zero by zero and infinity by infinity are no
numbers. -/
protected def div : Binary f → Binary f → Binary f
  | nan, _ => nan
  | _, nan => nan
  | infinity _, infinity _ => nan
  | infinity s, finite t _ _ => infinity (s ^^ t)
  | finite s _ _, infinity t => zero (s ^^ t)
  | finite s m _, finite t n _ =>
    if n = 0 then (if m = 0 then nan else infinity (s ^^ t))
    else round (s ^^ t) (m * f.one) n

instance : Neg (Binary f) := ⟨Binary.neg⟩
instance : Add (Binary f) := ⟨Binary.add⟩
instance : Sub (Binary f) := ⟨Binary.sub⟩
instance : Mul (Binary f) := ⟨Binary.mul⟩
instance : Div (Binary f) := ⟨Binary.div⟩

/-! ## Integers and other formats -/

def ofInt (n : Int) : Binary f := round (decide (n < 0)) (n.natAbs * f.one) 1

instance : OfNat (Binary f) 1 := ⟨ofInt 1⟩

def convert {g : Format} : Binary f → Binary g
  | nan => nan
  | infinity s => infinity s
  | finite s m _ => round s (m * g.one) f.one

/-- An integer brought into the range from `lo` to `hi`. -/
def clamp (lo hi n : Int) : Int := if n < lo then lo else if hi < n then hi else n

/-- The integer part, brought into the range from `lo` to `hi`; the not-a-number counts as zero. -/
def truncateWithin (lo hi : Int) : Binary f → Int
  | nan => 0
  | infinity s => if s then lo else hi
  | finite s m _ =>
    let whole : Int := (m / f.one : Nat)
    clamp lo hi (if s then -whole else whole)

/-! ## Integer powers -/

/-- The binary digits of `n`, lowest first. -/
def binaryDigits (n : Nat) : List Bool := (List.range (n.log2 + 1)).map n.testBit

/-- `x` to a natural power, by squaring `x` and multiplying in the squares that the digits of the
exponent ask for, lowest first. Each product is rounded. -/
def powNat (x : Binary f) (n : Nat) : Binary f :=
  ((binaryDigits n).foldl (fun (p : Binary f × Binary f) digit =>
    (if digit then p.1 * p.2 else p.1, p.2 * p.2)) (1, x)).1

/-- `x` to an integer power; a negative one is the reciprocal of the positive one. -/
def powInt (x : Binary f) (n : Int) : Binary f :=
  if n < 0 then 1 / x.powNat n.natAbs else x.powNat n.natAbs

end GoalRegression.Binary
