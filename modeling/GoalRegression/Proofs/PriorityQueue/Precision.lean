/-
Queues of any precision. Powers of ten that are rounded again and again never fall below one
(`AtLeastOne.powNat`), so what a priority is multiplied by is a number without a sign, zero and infinity included
(`factor_withPrecision`). Hence the order of the buckets never inverts that of the priorities (`key_le_key`).
-/
import GoalRegression.PriorityQueue.Basic
import GoalRegression.Proofs.Binary.Order

namespace GoalRegression

namespace Binary

variable {f : Format} {x y : Binary f}

/-! ## Powers of a number that is one or more -/

/-- One or more, infinity included. -/
structure AtLeastOne (x : Binary f) : Prop where
  isNaN : x.isNaN = false
  one_le : (f.one : Int) ≤ x.rank

instance (x : Binary f) : Decidable x.AtLeastOne :=
  decidable_of_iff (x.isNaN = false ∧ (f.one : Int) ≤ x.rank) ⟨fun h => ⟨h.1, h.2⟩, fun h => ⟨h.1, h.2⟩⟩

theorem AtLeastOne.cases (h : x.AtLeastOne) :
    x = infinity false ∨ ∃ m hm, x = finite false m hm ∧ f.one ≤ m := by
  obtain ⟨hnan, hrank⟩ := h
  have hone := f.one_pos
  cases x with
  | nan => cases hnan
  | infinity s =>
    cases s with
    | false => exact .inl rfl
    | true =>
      simp only [rank, if_true] at hrank
      omega
  | finite s m hm =>
    cases s with
    | false => exact .inr ⟨m, hm, rfl, Int.ofNat_le.1 hrank⟩
    | true =>
      simp only [rank, if_true] at hrank
      omega

theorem AtLeastOne.mul (hx : x.AtLeastOne) (hy : y.AtLeastOne) : (x * y).AtLeastOne := by
  have hone := f.one_pos
  rcases hx.cases with rfl | ⟨m, hm, rfl, hxm⟩
  · rcases hy.cases with rfl | ⟨n, hn, rfl, hyn⟩
    · exact hx
    · have hproduct : infinity false * finite false n hn = infinity false := if_neg (by omega)
      rwa [hproduct]
  · rcases hy.cases with rfl | ⟨n, hn, rfl, hyn⟩
    · have hproduct : finite false m hm * infinity false = infinity false := if_neg (by omega)
      rwa [hproduct]
    · rw [mul_finite]
      refine ⟨isNaN_round .., ?_⟩
      -- the exact product is no less than one, which is representable
      have hle : f.one ≤ f.nearest (m * n) f.one :=
        Format.le_nearest (f.gap_dvd_pow _) hone (Nat.mul_le_mul hxm hyn)
      rw [rank_round]
      exact Int.ofNat_le.2 (le_min hle (Nat.le_of_lt (Nat.lt_of_le_of_lt hxm hm.2)))

/-- Squares and the products of them that are taken are no less than one at any time. -/
theorem AtLeastOne.powNat (h : x.AtLeastOne) (hone : (1 : Binary f).AtLeastOne) (n : Nat) :
    (x.powNat n).AtLeastOne := by
  unfold Binary.powNat
  generalize (1 : Binary f) = product at hone
  induction binaryDigits n generalizing product x with
  | nil => exact hone
  | cons digit rest ih =>
    refine ih (h.mul h) _ ?_
    cases digit with
    | true => exact hone.mul h
    | false => exact hone

theorem one_eq_finite : (1 : Binary64) = finite false Format.double.one (by decide +kernel) := by decide +kernel

/-- The reciprocal of a number that is one or more is a number without a sign. -/
theorem AtLeastOne.reciprocal {x : Binary64} (h : x.AtLeastOne) :
    (1 / x).isNaN = false ∧ (1 / x).isNegative = false := by
  have hone := Format.double.one_pos
  rw [one_eq_finite]
  rcases h.cases with rfl | ⟨m, hm, rfl, hle⟩
  · exact ⟨rfl, rfl⟩
  · have hquotient : finite false Format.double.one (by decide +kernel) / finite false m hm =
        (round false (Format.double.one * Format.double.one) m : Binary64) := if_neg (by omega)
    rw [hquotient]
    exact ⟨isNaN_round .., isNegative_round ..⟩

end Binary

namespace PriorityQueue

variable {α : Type u}

/-! ## Buckets -/

/-- The factor of every precision is a number without a sign. -/
theorem factor_withPrecision (precision : UInt32) :
    (withPrecision precision : PriorityQueue α).factor.isNaN = false ∧
      (withPrecision precision : PriorityQueue α).factor.isNegative = false := by
  show (Binary.powInt (.ofInt 10) precision.toInt32.toInt : Binary64).isNaN = false ∧
    (Binary.powInt (.ofInt 10) precision.toInt32.toInt : Binary64).isNegative = false
  have hten : (Binary.ofInt 10 : Binary64).AtLeastOne := by decide +kernel
  have hpower := hten.powNat (by decide +kernel) precision.toInt32.toInt.natAbs
  unfold Binary.powInt
  split
  · exact hpower.reciprocal
  · rcases hpower.cases with heq | ⟨m, hm, heq, -⟩
    · rw [heq]
      exact ⟨rfl, rfl⟩
    · rw [heq]
      exact ⟨rfl, rfl⟩

/-- Whatever the precision, the smaller of two priorities is in no higher bucket. -/
theorem key_le_key (precision : UInt32) {p q : Binary32} (h : p.le q = true) :
    (withPrecision precision : PriorityQueue α).key p ≤ (withPrecision precision : PriorityQueue α).key q := by
  obtain ⟨hnan, hsign⟩ := factor_withPrecision (α := α) precision
  exact Binary.truncateWithin_mul_le (by decide) (by decide) hnan hsign (Binary.le_convert h)

/-- With an infinite factor zero is in the bucket of what is no number, between the ends of the range. A precision whose
factor is nothing, or a tenth, keeps the order as well. -/
theorem key_le_key_far_out :
    ((withPrecision 400 : PriorityQueue Unit).factor = .infinity false ∧
      (.zero true : Binary32).le (.infinity false) = true ∧
      (withPrecision 400 : PriorityQueue Unit).key (.zero true) = 0 ∧
      (withPrecision 400 : PriorityQueue Unit).key (.zero true) ≤
        (withPrecision 400 : PriorityQueue Unit).key (.infinity false)) ∧
    ((withPrecision 0x80000190 : PriorityQueue Unit).factor = .zero false ∧
      (withPrecision 0x80000190 : PriorityQueue Unit).key (.infinity true) ≤
        (withPrecision 0x80000190 : PriorityQueue Unit).key 1) ∧
    (withPrecision 0xffffffff : PriorityQueue Unit).key (.ofInt (-25)) ≤
      (withPrecision 0xffffffff : PriorityQueue Unit).key (.ofInt (-19)) := by
  refine ⟨⟨by decide +kernel, by decide +kernel, by decide +kernel, ?_⟩, ⟨by decide +kernel, ?_⟩, ?_⟩
  · exact key_le_key 400 (by decide +kernel)
  · exact key_le_key 0x80000190 (by decide +kernel)
  · exact key_le_key 0xffffffff (by decide +kernel)

end PriorityQueue

end GoalRegression
