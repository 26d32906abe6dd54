/-
Sums without rounding. Numbers of a format are read as extended numbers (`Binary.exact`), whose sums do not depend on
the order. Adding up numbers of a format one after the other gives the extended sum if none of the additions rounds,
and then it gives the same number in every order (`Binary.foldl_add_eq_of_perm`), its sign included.
-/
import GoalRegression.Proofs.Binary.Exact
import Mathlib.Algebra.BigOperators.Group.List.Basic

namespace GoalRegression

/-- A rational, an infinity, or what comes of opposite infinities. -/
inductive Extended where
  | undefined
  | infinite (negative : Bool)
  | rational (q : ℚ)
deriving DecidableEq

namespace Extended

protected def add : Extended → Extended → Extended
  | undefined, _ => undefined
  | _, undefined => undefined
  | infinite s, infinite t => if s = t then infinite s else undefined
  | infinite s, rational _ => infinite s
  | rational _, infinite t => infinite t
  | rational q, rational r => rational (q + r)

instance : Zero Extended := ⟨rational 0⟩
instance : Add Extended := ⟨Extended.add⟩

@[simp] theorem undefined_add (x : Extended) : undefined + x = undefined := rfl

@[simp] theorem add_undefined (x : Extended) : x + undefined = undefined := by
  cases x <;> rfl

@[simp] theorem infinite_add_infinite (s t : Bool) :
    infinite s + infinite t = if s = t then infinite s else undefined := rfl

@[simp] theorem infinite_add_rational (s : Bool) (q : ℚ) : infinite s + rational q = infinite s := rfl

@[simp] theorem rational_add_infinite (q : ℚ) (t : Bool) : rational q + infinite t = infinite t := rfl

@[simp] theorem rational_add_rational (q r : ℚ) : rational q + rational r = rational (q + r) := rfl

theorem zero_eq : (0 : Extended) = rational 0 := rfl

instance : AddCommMonoid Extended where
  add_assoc x y z := by
    rcases x with _ | ⟨_ | _⟩ | _ <;> rcases y with _ | ⟨_ | _⟩ | _ <;> rcases z with _ | ⟨_ | _⟩ | _ <;>
      simp [add_assoc]
  add_comm x y := by
    rcases x with _ | ⟨_ | _⟩ | _ <;> rcases y with _ | ⟨_ | _⟩ | _ <;> simp [add_comm]
  zero_add x := by cases x <;> simp [zero_eq]
  add_zero x := by cases x <;> simp [zero_eq]
  nsmul := nsmulRec

end Extended

namespace Binary

variable {f : Format} {x y sum : Binary f} {xs ys : List (Binary f)}

/-- What a number stands for. The zeros stand for the same. -/
def exact (x : Binary f) : Extended :=
  match x with
  | nan => .undefined
  | infinity negative => .infinite negative
  | x => .rational x.toRat

@[simp] theorem exact_zero (s : Bool) : (zero s : Binary f).exact = 0 := by
  show Extended.rational _ = _
  rw [toRat_zero]
  rfl

theorem rank_eq_of_toRat_eq (h : x.toRat = y.toRat) : x.rank = y.rank := by
  unfold toRat at h
  rw [div_left_inj' one_cast_pos.ne'] at h
  exact_mod_cast h

/-- Only the zeros stand for the same. -/
theorem eq_of_exact_eq (h : x.exact = y.exact) (hx : x ≠ zero true) (hy : y ≠ zero true) : x = y := by
  cases x <;> cases y <;> simp only [exact, reduceCtorEq, Extended.infinite.injEq, Extended.rational.injEq] at h
  · rfl
  · rw [h]
  · next s m hm t n hn =>
    have hrank := rank_eq_of_toRat_eq h
    cases s <;> cases t <;> simp only [rank, Bool.false_eq_true, if_true, if_false] at hrank
    · obtain rfl : m = n := by omega
      rfl
    · obtain rfl : n = 0 := by omega
      exact absurd rfl hy
    · obtain rfl : m = 0 := by omega
      exact absurd rfl hx
    · obtain rfl : m = n := by omega
      rfl

/-- None of the additions rounds when the numbers are added one after the other. -/
def SumsExactly : Binary f → List (Binary f) → Prop
  | _, [] => True
  | sum, x :: rest => (sum + x).exact = sum.exact + x.exact ∧ SumsExactly (sum + x) rest

instance decidableSumsExactly : (sum : Binary f) → (xs : List (Binary f)) → Decidable (SumsExactly sum xs)
  | _, [] => .isTrue trivial
  | sum, x :: rest =>
    have := decidableSumsExactly (sum + x) rest
    inferInstanceAs (Decidable (_ ∧ _))

/-- The negative zero is the sum of negative zeros only. -/
theorem add_ne_negativeZero (h : (x + y).exact = x.exact + y.exact) (hx : x ≠ zero true) : x + y ≠ zero true := by
  intro heq
  rw [heq, exact_zero, Extended.zero_eq] at h
  cases x <;> cases y <;> simp only [exact, Extended.undefined_add, Extended.add_undefined,
    Extended.infinite_add_infinite, Extended.infinite_add_rational, Extended.rational_add_infinite,
    Extended.rational_add_rational, reduceCtorEq, Extended.rational.injEq] at h
  · split at h <;> cases h
  · next s m hm t n hn =>
    have hsum : (finite s m hm).rank + (finite t n hn).rank = 0 := by
      have hone := (one_cast_pos (f := f)).ne'
      unfold toRat at h
      rw [← add_div, eq_comm, div_eq_zero_iff, or_iff_left hone] at h
      exact_mod_cast h
    have hadd : finite s m hm + finite t n hn = zero (s && t) := if_pos hsum
    rw [hadd] at heq
    cases s <;> cases t <;> cases heq
    simp only [rank, if_true] at hsum
    obtain rfl : m = 0 := by omega
    exact hx rfl

theorem exact_foldl_add (h : SumsExactly sum xs) :
    (xs.foldl (· + ·) sum).exact = sum.exact + (xs.map exact).sum := by
  induction xs generalizing sum with
  | nil => simp
  | cons x rest ih =>
    rw [List.foldl_cons, ih h.2, h.1, List.map_cons, List.sum_cons, add_assoc]

theorem foldl_add_ne_negativeZero (h : SumsExactly sum xs) (hsum : sum ≠ zero true) :
    xs.foldl (· + ·) sum ≠ zero true := by
  induction xs generalizing sum with
  | nil => exact hsum
  | cons x rest ih => exact ih h.2 (add_ne_negativeZero h.1 hsum)

/-- Numbers that are added up without rounding have the same sum in every order. -/
theorem foldl_add_eq_of_perm (hperm : xs.Perm ys) (hx : SumsExactly 0 xs) (hy : SumsExactly 0 ys) :
    xs.foldl (· + ·) (0 : Binary f) = ys.foldl (· + ·) 0 := by
  have hzero : (0 : Binary f) ≠ zero true := by
    intro h
    cases h
  refine eq_of_exact_eq ?_ (foldl_add_ne_negativeZero hx hzero) (foldl_add_ne_negativeZero hy hzero)
  rw [exact_foldl_add hx, exact_foldl_add hy, (hperm.map exact).sum_eq]

/-- Where an addition rounds, the order matters. -/
example :
    let numbers : List Binary32 := [.ofInt (2 ^ 24), 1, 1]
    ¬ SumsExactly 0 numbers ∧ SumsExactly 0 numbers.reverse ∧
      numbers.foldl (· + ·) 0 = .ofInt (2 ^ 24) ∧ numbers.reverse.foldl (· + ·) 0 = .ofInt (2 ^ 24 + 2) := by
  decide +kernel

end Binary

end GoalRegression
