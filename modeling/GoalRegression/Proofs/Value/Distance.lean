/-
How far two values are apart. Equal values are equally far from any third one (`distance_congr_left`), and it is as far
there as back (`distance_comm`). The relative gap of two finite numbers is positive and at most two, save that it is
infinite if their difference is out of range (`relativeGap_between`, `relativeGap_of_out_of_range`). Hence the distance
separates values (`distance_separates`), with two exceptions: integers that are one number in double precision, and
numbers whose difference is out of range.
-/
import GoalRegression.Decimal.Read
import GoalRegression.Proofs.Binary.Difference
import GoalRegression.Value.Basic

namespace GoalRegression

open Binary

namespace Value

/-! ## Equality and symmetry -/

theorem relativeGap_zero (s t : Bool) (y : Binary64) :
    relativeGap (.zero s) y = relativeGap (.zero t) y := by
  show ((Binary.add (.zero s) y.neg).abs / _).convert = ((Binary.add (.zero t) y.neg).abs / _).convert
  rw [Binary.abs_zero_add s t]
  rfl

theorem distance_congr_left {a a' : Value} (h : (a == a') = true) (b : Value) : a.distance b = a'.distance b := by
  have hb : (a == b) = (a' == b) := by
    rw [Bool.eq_iff_iff, beq_iff, beq_iff, beq_iff.1 h]
  unfold distance
  rw [hb]
  split
  · rfl
  · have hcanonical := beq_iff.1 h
    cases a <;> cases a' <;> simp only [canonical, reduceCtorEq, bool.injEq, int.injEq, float.injEq,
      text.injEq] at hcanonical
    · rw [hcanonical]
    · rw [hcanonical]
    · rcases Binary.eq_or_isZero_of_unsignedZero_eq hcanonical with rfl | ⟨hx, hy⟩
      · rfl
      · obtain ⟨s, rfl⟩ := Binary.isZero_iff.1 hx
        obtain ⟨t, rfl⟩ := Binary.isZero_iff.1 hy
        cases b with
        | float y =>
          show (if _ then relativeGap (.zero s) y else 1) = if _ then relativeGap (.zero t) y else 1
          rw [relativeGap_zero s t]
          rfl
        | _ => rfl
    · rw [hcanonical]

theorem relativeGap_nan_left (y : Binary64) : relativeGap .nan y = .nan := by
  unfold relativeGap
  generalize Binary.max _ y.abs = larger
  cases y <;> rfl

theorem relativeGap_nan_right (x : Binary64) : relativeGap x .nan = .nan := by
  unfold relativeGap
  generalize x.abs.max _ = larger
  cases x <;> rfl

theorem relativeGap_comm (x y : Binary64) : relativeGap x y = relativeGap y x := by
  by_cases hx : x = .nan
  · rw [hx, relativeGap_nan_left, relativeGap_nan_right]
  · by_cases hy : y = .nan
    · rw [hy, relativeGap_nan_left, relativeGap_nan_right]
    · unfold relativeGap
      rw [Binary.abs_sub_comm, Binary.max_abs_comm hx hy]

theorem distance_comm (a b : Value) : a.distance b = b.distance a := by
  unfold distance
  rw [BEq.comm (a := a)]
  split
  · rfl
  · cases a with
    | bool | text => cases b <;> rfl
    | int i =>
      cases b with
      | int j => exact relativeGap_comm ..
      | _ => rfl
    | float x =>
      cases b with
      | float y => simp only [Bool.and_comm x.isFinite, relativeGap_comm x]
      | _ => rfl

theorem distance_congr_right (a : Value) {b b' : Value} (h : (b == b') = true) : a.distance b = a.distance b' := by
  rw [distance_comm a, distance_comm a, distance_congr_left h]

theorem isNegative_distance (a b : Value) : (a.distance b).isNegative = false := by
  have hgap : ∀ x y, (relativeGap x y).isNegative = false := fun x y =>
    Binary.isNegative_convert (Binary.isNegative_div (Binary.isNegative_abs _)
      (Binary.isNegative_max (Binary.isNegative_abs x) (Binary.isNegative_abs y)))
  unfold distance
  split
  · rfl
  · split
    · exact hgap _ _
    · split
      · exact hgap _ _
      · exact Binary.isNegative_one
    · exact Binary.isNegative_one

/-! ## The relative gap of two numbers -/

section RelativeGap

variable {s t : Bool} {m n : Nat} (hm : Format.double.Fits m) (hn : Format.double.Fits n)

theorem relativeGap_finite : ∃ k fits, m ≤ k ∧ n ≤ k ∧ (k = m ∨ k = n) ∧
    relativeGap (finite s m hm) (finite t n hn) =
      ((finite s m hm - finite t n hn).abs / finite false k fits).convert := by
  obtain ⟨k, fits, heq, hmk, hnk, hor⟩ := max_abs_finite (s := s) (t := t) hm hn
  refine ⟨k, fits, hmk, hnk, hor, ?_⟩
  unfold relativeGap
  rw [heq]

/-- There is no gap between two numbers of one count, if it is not zero. -/
theorem relativeGap_of_signed_eq (h : signed s m = signed t n) (hne : m ≠ 0) :
    relativeGap (finite s m hm) (finite t n hn) = 0 := by
  obtain ⟨k, fits, hmk, -, -, heq⟩ := relativeGap_finite (s := s) (t := t) hm hn
  have hquotient : (zero false / finite false k fits : Binary64) = zero false := by
    show (if k = 0 then (if 0 = 0 then nan else infinity false) else round false (0 * Format.double.one) k) = _
    rw [if_neg (by omega), Nat.zero_mul]
    exact round_of_nearest_eq (Format.nearest_eq_zero _ (show 2 * 0 < k by omega)) (Format.fits_zero _)
  rw [heq, abs_sub_finite, if_pos h, hquotient]
  show round false (0 * Format.single.one) Format.double.one = (zero false : Binary32)
  rw [Nat.zero_mul]
  exact round_of_nearest_eq (Format.nearest_eq_zero _ (show 2 * 0 < _ from Format.double.one_pos)) (Format.fits_zero _)

/-- The gap of two numbers is infinite if their difference is out of range. -/
theorem relativeGap_of_out_of_range (h : (finite s m hm - finite t n hn).isFinite = false) :
    relativeGap (finite s m hm) (finite t n hn) = infinity false := by
  obtain ⟨k, fits, -, -, -, heq⟩ := relativeGap_finite (s := s) (t := t) hm hn
  rw [← isFinite_abs, abs_sub_finite] at h
  rw [heq, abs_sub_finite]
  split at h
  · cases h
  · next hne =>
    rw [← Bool.not_eq_true, isFinite_round_iff] at h
    rw [if_neg hne, round_of_limit_le (Nat.le_of_not_lt h)]
    rfl

/-- Otherwise two numbers of different counts have a gap, of two at most. -/
theorem relativeGap_between (h : signed s m ≠ signed t n) (hfinite : (finite s m hm - finite t n hn).isFinite = true) :
    (relativeGap (finite s m hm) (finite t n hn)).UpToTwo := by
  obtain ⟨k, fits, hmk, hnk, hor, heq⟩ := relativeGap_finite (s := s) (t := t) hm hn
  rw [← isFinite_abs, abs_sub_finite, if_neg h, isFinite_round_iff] at hfinite
  obtain ⟨D, hD⟩ : ∃ D, Format.double.nearest (signed s m - signed t n).natAbs 1 = D := ⟨_, rfl⟩
  have dfits : Format.double.Fits D := hD ▸ Format.fits_nearest hfinite
  have hround : (round false (signed s m - signed t n).natAbs 1 : Binary64) = finite false D dfits :=
    round_of_nearest_eq hD dfits
  have hk : k ≠ 0 := by
    rintro rfl
    obtain rfl : m = 0 := by omega
    obtain rfl : n = 0 := by omega
    cases s <;> cases t <;> exact h rfl
  -- the larger count against their difference, exact and rounded
  have hexact : k ≤ 2 ^ 54 * (signed s m - signed t n).natAbs := by
    rcases hor with rfl | rfl
    · exact Format.le_mul_natAbs_sub hm.1 hn.1 h
    · rw [← Int.natAbs_neg, Int.neg_sub]
      exact Format.le_mul_natAbs_sub hn.1 hm.1 h.symm
  have hlower : k ≤ D * 2 ^ 55 := by
    have := Format.double.le_two_mul_nearest (signed s m - signed t n).natAbs
    omega
  have hupper : D ≤ 2 * k := by
    rw [← hD]
    refine Format.nearest_le (Format.gap_dvd_two_mul fits.1) Nat.one_pos ?_
    rw [Nat.mul_one]
    exact natAbs_signed_sub_le hmk hnk s t
  -- neither rounding of the quotient leaves the bounds
  have hlo : Format.double.one * k ≤ D * Format.double.one * 2 ^ 55 := by
    rw [Nat.mul_right_comm, Nat.mul_comm]
    exact Nat.mul_le_mul_right _ hlower
  have hhi : D * Format.double.one ≤ 2 * Format.double.one * k := by
    rw [Nat.mul_right_comm]
    exact Nat.mul_le_mul_right _ hupper
  obtain ⟨q, qfits, hq, hqlo, hqhi⟩ := round_between (by decide) (by decide) (by omega) hlo hhi false
  have hlo' : Format.single.one * Format.double.one ≤ q * Format.single.one * 2 ^ 55 := by
    rw [Nat.mul_right_comm, Nat.mul_comm]
    exact Nat.mul_le_mul_right _ hqlo
  have hhi' : q * Format.single.one ≤ 2 * Format.single.one * Format.double.one := by
    rw [Nat.mul_right_comm]
    exact Nat.mul_le_mul_right _ hqhi
  obtain ⟨r, rfits, hr, hrlo, hrhi⟩ := round_between (by decide) (by decide) Format.double.one_pos hlo' hhi' false
  have hquotient : (finite false D dfits / finite false k fits : Binary64) = finite false q qfits :=
    (if_neg hk).trans hq
  refine ⟨r, rfits, ?_, ?_, hrhi⟩
  · rw [heq, abs_sub_finite, if_neg h, hround, hquotient]
    exact hr
  · have := Format.single.one_pos
    rcases Nat.eq_zero_or_pos r with rfl | hpos
    · omega
    · exact hpos

end RelativeGap

/-! ## Distances -/

/-- Two integers that are one number in double precision. -/
def coincide : Value → Value → Bool
  | int i, int j => decide ((.ofInt i.toInt : Binary64) = .ofInt j.toInt)
  | _, _ => false

/-- Two finite numbers whose difference is out of range. -/
def tooFarApart : Value → Value → Bool
  | float x, float y => x.isFinite && y.isFinite && !(x - y).isFinite
  | _, _ => false

/-- Finite numbers of one count are equal as values. -/
theorem beq_of_signed_eq {s t : Bool} {m n : Nat} (hm : Format.double.Fits m) (hn : Format.double.Fits n)
    (h : signed s m = signed t n) : (float (finite s m hm) == float (finite t n hn)) = true := by
  rw [beq_iff]
  refine congrArg float ?_
  obtain ⟨rfl, rfl | rfl⟩ := signed_inj h
  · rfl
  · rfl

theorem upToTwo_one : (1 : Binary32).UpToTwo := by
  have hone : (1 : Binary32) = finite false Format.single.one (by decide +kernel) := by decide +kernel
  exact ⟨_, _, hone, Format.single.one_pos, Nat.le_mul_of_pos_left _ (by decide)⟩

theorem distance_of_beq {a b : Value} (h : (a == b) = true) : a.distance b = 0 := if_pos h

/-- Unequal integers are at no distance if they coincide, and else at one of at most two. -/
theorem distance_int {i j : Int64} (h : (int i == int j) = false) :
    (int i).coincide (int j) = true ∧ (int i).distance (int j) = 0 ∨
      (int i).coincide (int j) = false ∧ ((int i).distance (int j)).UpToTwo := by
  have hdistance : (int i).distance (int j) = relativeGap (.ofInt i.toInt) (.ofInt j.toInt) := by
    unfold distance
    rw [h, if_neg Bool.false_ne_true]
  have hne : i.toInt ≠ j.toInt := by
    intro heq
    rw [Int64.toInt_inj.1 heq, BEq.rfl] at h
    cases h
  have hbound (k : Int64) : k.toInt.natAbs ≤ 2 ^ 63 := by
    have := k.le_toInt
    have := k.toInt_lt
    omega
  obtain ⟨m, hm, hi, hmle, hmne⟩ := ofInt_eq_finite (f := .double) (by decide) (hbound i)
  obtain ⟨n, hn, hj, hnle, hnne⟩ := ofInt_eq_finite (f := .double) (by decide) (hbound j)
  have hcoincide : (int i).coincide (int j) =
      decide (finite (decide (i.toInt < 0)) m hm = finite (decide (j.toInt < 0)) n hn) := by
    rw [← hi, ← hj]
    rfl
  rw [hdistance, hcoincide, hi, hj, decide_eq_true_eq, decide_eq_false_iff_not]
  by_cases heq : signed (decide (i.toInt < 0)) m = signed (decide (j.toInt < 0)) n
  · -- if both were zero, the integers would be
    obtain ⟨rfl, hsign⟩ := signed_inj heq
    have hmzero : m ≠ 0 := by
      intro hzero
      have hizero : i.toInt = 0 := not_not.1 fun hne => hmne hne hzero
      have hjzero : j.toInt = 0 := not_not.1 fun hne => hnne hne hzero
      exact hne (hizero.trans hjzero.symm)
    rw [← hsign.resolve_right hmzero]
    exact .inl ⟨rfl, relativeGap_of_signed_eq hm hm rfl hmzero⟩
  · refine .inr ⟨fun hsame => heq ?_, relativeGap_between hm hn heq (isFinite_sub_of_le ?_ hm hn hmle hnle)⟩
    · exact congrArg rank hsame
    · decide

/-- Unequal numbers are at an infinite distance if they are too far apart, and else at one of at most two. -/
theorem distance_float {x y : Binary64} (h : (float x == float y) = false) :
    (float x).tooFarApart (float y) = true ∧ (float x).distance (float y) = infinity false ∨
      (float x).tooFarApart (float y) = false ∧ ((float x).distance (float y)).UpToTwo := by
  have hdistance : (float x).distance (float y) = if x.isFinite && y.isFinite then relativeGap x y else 1 := by
    unfold distance
    rw [h, if_neg Bool.false_ne_true]
  have htooFar : (float x).tooFarApart (float y) = (x.isFinite && y.isFinite && !(x - y).isFinite) := rfl
  rw [hdistance, htooFar]
  cases hfinite : x.isFinite && y.isFinite with
  | false => exact .inr ⟨rfl, upToTwo_one⟩
  | true =>
    obtain ⟨hx, hy⟩ := Bool.and_eq_true_iff.1 hfinite
    cases x with
    | nan | infinity => cases hx
    | finite s m hm =>
      cases y with
      | nan | infinity => cases hy
      | finite t n hn =>
        have hne : signed s m ≠ signed t n := by
          intro heq
          rw [beq_of_signed_eq hm hn heq] at h
          cases h
        cases hsub : (finite s m hm - finite t n hn).isFinite with
        | false => exact .inl ⟨rfl, relativeGap_of_out_of_range hm hn hsub⟩
        | true => exact .inr ⟨rfl, relativeGap_between hm hn hne hsub⟩

/-- Values that are not equal: integers that coincide are at no distance, numbers too far apart at an infinite one, and
all others at a distance of more than nothing and at most two. -/
theorem distance_of_beq_eq_false {a b : Value} (h : (a == b) = false) :
    a.coincide b = true ∧ a.tooFarApart b = false ∧ a.distance b = 0 ∨
      a.coincide b = false ∧ a.tooFarApart b = true ∧ a.distance b = infinity false ∨
      a.coincide b = false ∧ a.tooFarApart b = false ∧ (a.distance b).UpToTwo := by
  cases a with
  | int i =>
    cases b with
    | int j =>
      rcases distance_int h with ⟨hcoincide, hzero⟩ | ⟨hcoincide, hbetween⟩
      · exact .inl ⟨hcoincide, rfl, hzero⟩
      · exact .inr (.inr ⟨hcoincide, rfl, hbetween⟩)
    | bool | float | text => exact .inr (.inr ⟨rfl, rfl, upToTwo_one⟩)
  | float x =>
    cases b with
    | float y =>
      rcases distance_float h with ⟨hfar, hinfinity⟩ | ⟨hfar, hbetween⟩
      · exact .inr (.inl ⟨rfl, hfar, hinfinity⟩)
      · exact .inr (.inr ⟨rfl, hfar, hbetween⟩)
    | bool | int | text => exact .inr (.inr ⟨rfl, rfl, upToTwo_one⟩)
  | bool | text =>
    refine .inr (.inr ⟨rfl, rfl, ?_⟩)
    unfold distance
    rw [h, if_neg Bool.false_ne_true]
    exact upToTwo_one

/-- Equal values are not too far apart. -/
theorem tooFarApart_of_beq {a b : Value} (h : (a == b) = true) : a.tooFarApart b = false := by
  cases a with
  | bool | int | text => rfl
  | float x =>
    cases b with
    | bool | int | text => rfl
    | float y =>
      cases x with
      | nan | infinity => rfl
      | finite s m hm =>
        cases y with
        | nan | infinity => rfl
        | finite t n hn =>
          have hsame : signed s m = signed t n := by
            have hcanonical := beq_iff.1 h
            simp only [canonical, float.injEq] at hcanonical
            rcases eq_or_isZero_of_unsignedZero_eq hcanonical with heq | ⟨hx, hy⟩
            · exact congrArg rank heq
            · obtain rfl : m = 0 := beq_iff_eq.1 hx
              obtain rfl : n = 0 := beq_iff_eq.1 hy
              cases s <;> cases t <;> rfl
          have hfinite : (finite s m hm - finite t n hn).isFinite = true := by
            rw [← isFinite_abs, abs_sub_finite, if_pos hsame]
            rfl
          show (true && true && !(finite s m hm - finite t n hn).isFinite) = false
          rw [hfinite]
          rfl

/-- The distance is the same both ways, and has no sign. It is nothing exactly between equal values and between integers
that coincide in double precision. It is infinite between numbers whose difference is out of range, and else a number
from nothing to two. -/
theorem distance_separates (a b : Value) :
    a.distance b = b.distance a ∧ (a.distance b).isNegative = false ∧
      (a.distance b = 0 ↔ (a == b) = true ∨ a.coincide b = true) ∧
      (a.tooFarApart b = true → a.distance b = infinity false) ∧
      (a.tooFarApart b = false →
        (a.distance b).isFinite = true ∧ 0 ≤ (a.distance b).toRat ∧ (a.distance b).toRat ≤ 2) := by
  have hzero : (0 : Binary32).isFinite = true ∧ 0 ≤ (0 : Binary32).toRat ∧ (0 : Binary32).toRat ≤ 2 := by
    have hrat : (0 : Binary32).toRat = 0 := toRat_zero false
    rw [hrat]
    exact ⟨rfl, le_refl 0, by norm_num⟩
  refine ⟨distance_comm a b, isNegative_distance a b, ?_⟩
  cases h : a == b with
  | true =>
    rw [tooFarApart_of_beq h, distance_of_beq h]
    exact ⟨iff_of_true rfl (.inl rfl), fun h => absurd h Bool.false_ne_true, fun _ => hzero⟩
  | false =>
    rcases distance_of_beq_eq_false h with
      ⟨hcoincide, hfar, hdistance⟩ | ⟨hcoincide, hfar, hdistance⟩ | ⟨hcoincide, hfar, hbetween⟩
    · rw [hcoincide, hfar, hdistance]
      exact ⟨iff_of_true rfl (.inr rfl), fun h => absurd h Bool.false_ne_true, fun _ => hzero⟩
    · rw [hcoincide, hfar, hdistance]
      exact ⟨iff_of_false (by decide) (by simp), fun _ => rfl, fun h => absurd h.symm Bool.false_ne_true⟩
    · rw [hcoincide, hfar]
      have hnonneg := toRat_nonneg_iff.2 (rank_nonneg (isNegative_distance a b))
      exact ⟨iff_of_false hbetween.ne_zero (by simp), fun h => absurd h Bool.false_ne_true,
        fun _ => ⟨hbetween.isFinite, hnonneg, hbetween.toRat_le⟩⟩

/-- Two to the fifty-third and the next integer differ, and are at no distance. Ten to the power of 308 is a
finite number, and infinitely far from its opposite. -/
theorem distance_loses_large_numbers :
    (int (2 ^ 53) == int (2 ^ 53 + 1)) = false ∧ (int (2 ^ 53)).distance (int (2 ^ 53 + 1)) = 0 ∧
      (Decimal.toBinary false ⟨1, 308⟩ : Binary64).isFinite = true ∧
      (float (Decimal.toBinary false ⟨1, 308⟩)).distance (float (Decimal.toBinary true ⟨1, 308⟩)) = infinity false := by
  decide +kernel

end Value

end GoalRegression
