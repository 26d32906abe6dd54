/-
The bucket of a priority. A single-precision priority is multiplied in double precision, where a thousandfold
of it is exact, so its bucket is the integer part of the thousandfold within 64 bits (`bucket_finite`). A
priority that is not negative is therefore at least the thousandth of its bucket (`bucket_le`), and if it is
in range less than a thousandth more (`toRat_lt_bucket`).
-/
import GoalRegression.PriorityQueue.Basic
import GoalRegression.Proofs.Binary.Exact
import Mathlib.Data.Rat.Floor
import Mathlib.Tactic.Linarith

namespace GoalRegression

open Binary

/-- The bucket of a priority in a queue of the default precision. -/
def bucket (priority : Binary32) : Int := (PriorityQueue.empty : PriorityQueue Unit).key priority

theorem PriorityQueue.factor_empty {α : Type u} :
    (PriorityQueue.empty : PriorityQueue α).factor = .ofInt 1000 := by
  show (Binary.ofInt 10).powInt PriorityQueue.defaultPrecision.toInt32.toInt = _
  decide +kernel

theorem PriorityQueue.key_eq_bucket {α : Type u} {q : PriorityQueue α}
    (h : q.factor = (PriorityQueue.empty : PriorityQueue α).factor) (priority : Binary32) :
    q.key priority = bucket priority := by
  unfold bucket key
  rw [h, factor_empty, factor_empty]

theorem PriorityQueue.key_empty {α : Type u} (priority : Binary32) :
    (PriorityQueue.empty : PriorityQueue α).key priority = bucket priority := by
  rw [PriorityQueue.key_eq_bucket]
  rfl

/-! ## The thousandfold -/

theorem one_double : Format.double.one = Nat.pow 2 925 * Format.single.one := by decide +kernel

theorem ofInt_thousand : (ofInt 1000 : Binary64) =
    .finite false (1000 * Format.double.one) (by decide +kernel) := by
  decide +kernel

/-- The bucket of a finite priority is the integer part of its thousandfold, within 64 bits. -/
theorem bucket_finite {s : Bool} {m : Nat} (h : Format.single.Fits m) :
    bucket (.finite s m h) = clamp Int64.minValue.toInt Int64.maxValue.toInt
      (if s then -((m * 1000 / Format.single.one : Nat) : Int) else (m * 1000 / Format.single.one : Nat)) := by
  have hprecision : Nat.pow 2 Format.single.precision * 1000 ≤ Nat.pow 2 Format.double.precision := by
    decide +kernel
  have hlimit : Format.single.limit * Nat.pow 2 925 * 1000 ≤ Format.double.limit := by decide +kernel
  have hfits : Format.double.Fits (1000 * Format.double.one) := by decide +kernel
  obtain ⟨fits, hproduct⟩ := convert_mul_of_wider (s := s) one_double (by decide) hprecision hlimit h hfits
  have hwhole : m * Nat.pow 2 925 * 1000 / Format.double.one = m * 1000 / Format.single.one := by
    rw [one_double]
    generalize hj : 925 = j
    have hpos : 0 < Nat.pow 2 j := Nat.two_pow_pos j
    rw [Nat.mul_right_comm, Nat.mul_comm, Nat.mul_div_mul_left _ _ hpos]
  unfold bucket PriorityQueue.key
  rw [PriorityQueue.factor_empty, ofInt_thousand, hproduct]
  simp only [truncateWithin, hwhole]

theorem bucket_nan : bucket .nan = 0 := rfl

theorem bucket_infinity (s : Bool) :
    bucket (.infinity s) = if s then Int64.minValue.toInt else Int64.maxValue.toInt := by
  unfold bucket PriorityQueue.key
  rw [PriorityQueue.factor_empty]
  cases s <;> decide +kernel

/-! ## Priorities and buckets as rationals -/

theorem clamp_le {lo hi n : Int} (h : lo ≤ n) : clamp lo hi n ≤ n := by
  unfold clamp
  split
  · exact h
  · split <;> omega

theorem clamp_eq {lo hi n : Int} (hlo : lo ≤ n) (hhi : n ≤ hi) : clamp lo hi n = n := by
  unfold clamp
  rw [if_neg (by omega), if_neg (by omega)]

/-- A finite priority that is not negative, its thousandfold and the integer part of it. -/
theorem exists_whole_of_rank_nonneg {s : Bool} {m : Nat} {h : Format.single.Fits m}
    (hrank : 0 ≤ (finite s m h).rank) :
    ∃ whole : Nat, bucket (.finite s m h) = clamp Int64.minValue.toInt Int64.maxValue.toInt whole ∧
      (whole : ℚ) ≤ (finite s m h).toRat * 1000 ∧ (finite s m h).toRat * 1000 < whole + 1 := by
  have hone : (0 : ℚ) < Format.single.one := one_cast_pos
  refine ⟨m * 1000 / Format.single.one, ?_⟩
  have hrat : (finite s m h).toRat = (m : ℚ) / Format.single.one ∧
      bucket (.finite s m h) =
        clamp Int64.minValue.toInt Int64.maxValue.toInt (m * 1000 / Format.single.one : Nat) := by
    rw [bucket_finite]
    cases s with
    | false => exact ⟨rfl, rfl⟩
    | true =>
      -- the negative zero
      obtain rfl : m = 0 := by
        simp only [rank, if_true] at hrank
        omega
      simp [toRat, rank]
  refine ⟨hrat.2, ?_, ?_⟩
  · rw [hrat.1, div_mul_eq_mul_div, le_div_iff₀ hone]
    exact_mod_cast Nat.div_mul_le_self (m * 1000) Format.single.one
  · rw [hrat.1, div_mul_eq_mul_div, div_lt_iff₀ hone]
    have hlt := Nat.lt_mul_div_succ (m * 1000) Format.single.one_pos
    rw [Nat.mul_comm Format.single.one] at hlt
    exact_mod_cast hlt

theorem rank_infinity_neg : ¬ 0 ≤ (infinity true : Binary32).rank := by
  have := Format.single.limit_pos
  simp only [rank, if_true]
  omega

/-- A priority that is not negative is at least a thousandth of its bucket. -/
theorem bucket_le {priority : Binary32} (h : 0 ≤ priority.toRat) : (bucket priority : ℚ) / 1000 ≤ priority.toRat := by
  have hrank := toRat_nonneg_iff.1 h
  rw [div_le_iff₀ (by norm_num)]
  cases priority with
  | nan => simp [bucket_nan, toRat, rank]
  | infinity s =>
    cases s with
    | true => exact absurd hrank rank_infinity_neg
    | false =>
      have hlimit : Int64.maxValue.toInt * Format.single.one ≤ (infinity false : Binary32).rank * 1000 := by
        decide +kernel
      rw [bucket_infinity, toRat, div_mul_eq_mul_div, le_div_iff₀ one_cast_pos]
      exact_mod_cast hlimit
  | finite s m hfits =>
    obtain ⟨whole, hbucket, hle, -⟩ := exists_whole_of_rank_nonneg hrank
    have hclamp : bucket (.finite s m hfits) ≤ whole := by
      rw [hbucket]
      exact clamp_le (Int.le_trans (by decide) (Int.natCast_nonneg whole))
    exact le_trans (by exact_mod_cast hclamp) hle

/-- In the range of the buckets it is less than a thousandth above. -/
theorem toRat_lt_bucket {priority : Binary32} (h : 0 ≤ priority.toRat) (hrange : priority.toRat * 1000 < 2 ^ 63) :
    priority.toRat < (bucket priority : ℚ) / 1000 + 1 / 1000 := by
  have hrank := toRat_nonneg_iff.1 h
  rw [← add_div, lt_div_iff₀ (by norm_num)]
  cases priority with
  | nan => norm_num [bucket_nan, toRat, rank]
  | infinity s =>
    cases s with
    | true => exact absurd hrank rank_infinity_neg
    | false =>
      have hlimit : 2 ^ 63 * Format.single.one ≤ (infinity false : Binary32).rank * 1000 := by decide +kernel
      rw [toRat, div_mul_eq_mul_div, div_lt_iff₀ one_cast_pos] at hrange
      exact absurd hrange (not_lt.2 (by exact_mod_cast hlimit))
  | finite s m hfits =>
    obtain ⟨whole, hbucket, hle, hlt⟩ := exists_whole_of_rank_nonneg hrank
    have hwhole : whole < 2 ^ 63 := by exact_mod_cast lt_of_le_of_lt hle hrange
    have hmax : Int64.maxValue.toInt = 2 ^ 63 - 1 := by decide
    rw [hbucket, clamp_eq (Int.le_trans (by decide) (Int.natCast_nonneg whole)) (by omega)]
    exact hlt

/-- Whole thousandths in that range are counted exactly. -/
theorem bucket_eq_of_thousandths {priority : Binary32} {n : Nat} (h : priority.toRat * 1000 = n) (hn : n < 2 ^ 63) :
    bucket priority = n := by
  have hnonneg : 0 ≤ priority.toRat := by
    have : (0 : ℚ) ≤ n := Nat.cast_nonneg n
    linarith
  have hrange : priority.toRat * 1000 < 2 ^ 63 := by
    rw [h]
    exact_mod_cast hn
  -- the bucket lies less than one below the whole number
  have hle := bucket_le hnonneg
  have hlt := toRat_lt_bucket hnonneg hrange
  have hupper : (bucket priority : ℚ) ≤ n := by linarith
  have hlower : (n : ℚ) < bucket priority + 1 := by linarith
  have hupper : bucket priority ≤ n := by exact_mod_cast hupper
  have hlower : (n : ℤ) < bucket priority + 1 := by exact_mod_cast hlower
  omega

end GoalRegression
