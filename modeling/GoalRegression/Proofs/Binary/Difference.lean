/-
Differences of numbers. The magnitude of a difference and the larger of two magnitudes are the same both ways
(`abs_sub_comm`, `max_abs_comm`); of finite numbers they are counts (`abs_sub_finite`, `max_abs_finite`). Distinct
counts are apart by a share of the larger one (`le_mul_natAbs_sub`) that no rounding loses, of the difference
(`le_two_mul_nearest`) or of a quotient (`round_between`). The only equal numbers that are not the same are the two
zeros.
-/
import GoalRegression.Proofs.Binary.Order

namespace GoalRegression

/-! ## Distinct counts -/

namespace Format

variable {f : Format} {m n : Nat}

/-- Of two representable counts the larger one is at most so many times their difference. -/
theorem le_mul_sub_of_lt (hm : f.gap m ∣ m) (hn : f.gap n ∣ n) (h : m < n) :
    n ≤ 2 ^ (f.precision + 1) * (n - m) := by
  have htwo : 2 ≤ 2 ^ (f.precision + 1) := Nat.le_self_pow (Nat.succ_ne_zero _) 2
  rcases Nat.lt_or_ge (2 * m) n with hfar | hnear
  · calc n ≤ 2 * (n - m) := by omega
      _ ≤ 2 ^ (f.precision + 1) * (n - m) := Nat.mul_le_mul_right _ htwo
  · -- the gap of the smaller one divides both
    have hgap : f.gap m ∣ n := Nat.dvd_trans (Nat.pow_dvd_pow 2 (f.gapBits_mono (Nat.le_of_lt h))) hn
    have hle : f.gap m ≤ n - m := Nat.le_of_dvd (by omega) (Nat.dvd_sub hgap hm)
    calc n ≤ 2 * m := hnear
      _ ≤ 2 * 2 ^ (f.precision + f.gapBits m) := Nat.mul_le_mul_left 2 (Nat.le_of_lt (f.lt_pow_gapBits m))
      _ = 2 ^ (f.precision + 1) * f.gap m := by
          show _ = 2 ^ (f.precision + 1) * 2 ^ f.gapBits m
          rw [← Nat.pow_add, ← Nat.pow_succ', Nat.add_right_comm]
      _ ≤ 2 ^ (f.precision + 1) * (n - m) := Nat.mul_le_mul_left _ hle

/-- So is each of two counts with signs that are not the same. -/
theorem le_mul_natAbs_sub (hm : f.gap m ∣ m) (hn : f.gap n ∣ n) {s t : Bool}
    (h : Binary.signed s m ≠ Binary.signed t n) :
    m ≤ 2 ^ (f.precision + 1) * (Binary.signed s m - Binary.signed t n).natAbs := by
  have hpos : 1 ≤ 2 ^ (f.precision + 1) := Nat.one_le_two_pow
  have hcases : (Binary.signed s m - Binary.signed t n).natAbs = m + n ∨
      (Binary.signed s m - Binary.signed t n).natAbs = n - m ∧ m < n ∨
      (Binary.signed s m - Binary.signed t n).natAbs = m - n ∧ n < m := by
    cases s <;> cases t <;> simp only [Binary.signed, Bool.false_eq_true, if_true, if_false] at h ⊢ <;> omega
  rcases hcases with heq | ⟨heq, hlt⟩ | ⟨heq, hlt⟩
  · rw [heq]
    calc m ≤ 1 * (m + n) := by omega
      _ ≤ 2 ^ (f.precision + 1) * (m + n) := Nat.mul_le_mul_right _ hpos
  · rw [heq]
    exact Nat.le_trans (Nat.le_of_lt hlt) (le_mul_sub_of_lt hm hn hlt)
  · rw [heq]
    exact le_mul_sub_of_lt hn hm hlt

/-- Twice a representable count is representable, but for the range. -/
theorem gap_dvd_two_mul (hn : f.gap n ∣ n) : f.gap (2 * n) ∣ 2 * n := by
  obtain ⟨m, k, hm, rfl⟩ := exists_short_of_gap_dvd hn
  have hshift : 2 * (m * Nat.pow 2 k) = m * Nat.pow 2 (k + 1) := by
    rw [Nat.pow_eq, Nat.pow_eq, Nat.pow_succ', Nat.mul_left_comm]
  rw [hshift]
  exact gap_dvd_of_le hm

/-- Rounding does not take more than half of a count. -/
theorem le_two_mul_nearest (f : Format) (n : Nat) : n ≤ 2 * f.nearest n 1 := by
  rcases Nat.eq_zero_or_pos n with rfl | hpos
  · exact Nat.zero_le _
  · have hle : 2 ^ n.log2 ≤ n := Nat.log2_self_le (by omega)
    have hlead : 2 ^ n.log2 ≤ f.nearest n 1 :=
      le_nearest (f.gap_dvd_pow _) Nat.one_pos (by rw [Nat.mul_one]; exact hle)
    calc n ≤ 2 ^ (n.log2 + 1) := Nat.le_of_lt Nat.lt_log2_self
      _ = 2 * 2 ^ n.log2 := Nat.pow_succ'
      _ ≤ 2 * f.nearest n 1 := Nat.mul_le_mul_left 2 hlead

end Format

namespace Binary

variable {f : Format}

/-! ## Zeros -/

theorem isZero_iff {x : Binary f} : x.isZero = true ↔ ∃ negative, x = zero negative := by
  cases x with
  | nan => exact iff_of_false (fun h => by cases h) (fun ⟨_, h⟩ => by cases h)
  | infinity => exact iff_of_false (fun h => by cases h) (fun ⟨_, h⟩ => by cases h)
  | finite negative units fits =>
    constructor
    · intro h
      obtain rfl : units = 0 := beq_iff_eq.1 h
      exact ⟨negative, rfl⟩
    · rintro ⟨_, h⟩
      cases h
      rfl

/-- Numbers with one unsigned form are the same, or both are zeros. -/
theorem eq_or_isZero_of_unsignedZero_eq {x y : Binary f} (h : x.unsignedZero = y.unsignedZero) :
    x = y ∨ x.isZero = true ∧ y.isZero = true := by
  have hzero : x.isZero = y.isZero := by rw [← isZero_unsignedZero x, h, isZero_unsignedZero]
  cases hx : x.isZero with
  | true => exact .inr ⟨rfl, hzero ▸ hx⟩
  | false =>
    unfold unsignedZero at h
    rw [← hzero, hx] at h
    exact .inl h

/-- The sign of a zero does not show in the magnitude of a sum. -/
theorem abs_zero_add (s t : Bool) (y : Binary f) : ((zero s).add y).abs = ((zero t).add y).abs := by
  have hrank : ∀ u : Bool, (finite u 0 f.fits_zero : Binary f).rank = 0 := by intro u; cases u <;> rfl
  cases y with
  | nan => rfl
  | infinity => rfl
  | finite u n hn =>
    simp only [zero, Binary.add, hrank]
    split <;> rfl

/-! ## Magnitudes -/

theorem abs_round (s : Bool) (num den : Nat) : (round s num den : Binary f).abs = round false num den := by
  unfold round
  split <;> rfl

theorem rank_neg_finite (s : Bool) {m : Nat} (hm : f.Fits m) :
    (finite (!s) m hm).rank = -(finite s m hm).rank := by
  cases s <;> simp [rank]

/-- The magnitude of a difference is the same both ways. -/
theorem abs_sub_comm (x y : Binary f) : (x - y).abs = (y - x).abs := by
  show (x.add y.neg).abs = (y.add x.neg).abs
  cases x with
  | nan => cases y <;> rfl
  | infinity s =>
    cases y with
    | nan | finite => rfl
    | infinity t => cases s <;> cases t <;> rfl
  | finite s m hm =>
    cases y with
    | nan | infinity => rfl
    | finite t n hn =>
      simp only [Binary.neg, Binary.add, rank_neg_finite]
      generalize (finite s m hm).rank = a
      generalize (finite t n hn).rank = b
      have hback : b + -a = -(a + -b) := by omega
      rw [hback]
      by_cases hsum : a + -b = 0
      · rw [if_pos hsum, if_pos (by omega)]
        rfl
      · rw [if_neg hsum, if_neg (by omega), abs_round, abs_round, Int.natAbs_neg]

/-- Of two magnitudes the larger one is the same both ways. -/
theorem max_abs_comm {x y : Binary f} (hx : x ≠ nan) (hy : y ≠ nan) : x.abs.max y.abs = y.abs.max x.abs := by
  have hnan : ∀ z : Binary f, z ≠ nan → z.abs.isNaN = false := by
    intro z hz
    cases z with
    | nan => exact absurd rfl hz
    | infinity | finite => rfl
  have hinj : x.abs.rank = y.abs.rank → x.abs = y.abs := by
    cases x with
    | nan => exact absurd rfl hx
    | infinity s =>
      cases y with
      | nan => exact absurd rfl hy
      | infinity t => exact fun _ => rfl
      | finite t n hn =>
        intro h
        have := hn.2
        simp only [abs, rank, Bool.false_eq_true, if_false] at h
        omega
    | finite s m hm =>
      cases y with
      | nan => exact absurd rfl hy
      | infinity t =>
        intro h
        have := hm.2
        simp only [abs, rank, Bool.false_eq_true, if_false] at h
        omega
      | finite t n hn =>
        intro h
        simp only [abs, rank, Bool.false_eq_true, if_false] at h
        obtain rfl : m = n := by omega
        rfl
  unfold max lt
  rw [hnan x hx, hnan y hy]
  simp only [Bool.not_false, Bool.true_and, decide_eq_true_eq]
  by_cases hlt : x.abs.rank < y.abs.rank
  · rw [if_pos hlt, if_neg (by omega)]
  · by_cases hgt : y.abs.rank < x.abs.rank
    · rw [if_neg hlt, if_pos hgt]
    · rw [if_neg hlt, if_neg hgt, hinj (by omega)]

/-! ## Of finite numbers -/

theorem natAbs_signed_sub_le {m n k : Nat} (hm : m ≤ k) (hn : n ≤ k) (s t : Bool) :
    (signed s m - signed t n).natAbs ≤ 2 * k := by
  cases s <;> cases t <;> simp only [signed, Bool.false_eq_true, if_true, if_false] <;> omega

/-- Of a count with a sign both are known, but for the sign of zero. -/
theorem signed_inj {s t : Bool} {m n : Nat} (h : signed s m = signed t n) : m = n ∧ (s = t ∨ m = 0) := by
  cases s <;> cases t <;> simp only [signed, Bool.false_eq_true, if_true, if_false] at h <;> simp <;> omega

theorem isFinite_abs (x : Binary f) : x.abs.isFinite = x.isFinite := by
  cases x <;> rfl

/-- A quotient from some negative power of two to two is rounded to a number in these bounds. -/
theorem round_between {k num den : Nat} (hk : k ≤ f.fractionBits) (hwidth : f.fractionBits + 1 < f.width)
    (hden : 0 < den) (hlo : f.one * den ≤ num * 2 ^ k) (hhi : num ≤ 2 * f.one * den) (s : Bool) :
    ∃ m fits, (round s num den : Binary f) = finite s m fits ∧ f.one ≤ m * 2 ^ k ∧ m ≤ 2 * f.one := by
  have hone : f.one = Nat.pow 2 (f.fractionBits - k) * 2 ^ k := by
    show 2 ^ f.fractionBits = 2 ^ (f.fractionBits - k) * 2 ^ k
    rw [← Nat.pow_add, Nat.sub_add_cancel hk]
  have htwo : 2 * f.one = Nat.pow 2 (f.fractionBits + 1) := Nat.pow_succ'.symm
  have hlower : Nat.pow 2 (f.fractionBits - k) ≤ f.nearest num den := by
    refine Format.le_nearest (f.gap_dvd_pow _) hden (Nat.le_of_mul_le_mul_right ?_ (Nat.two_pow_pos k))
    rwa [Nat.mul_right_comm, ← hone]
  have hupper : f.nearest num den ≤ 2 * f.one := by
    rw [htwo] at hhi ⊢
    exact Format.nearest_le (f.gap_dvd_pow _) hden hhi
  have hlimit : f.nearest num den < f.limit := by
    calc f.nearest num den ≤ Nat.pow 2 (f.fractionBits + 1) := htwo ▸ hupper
      _ < f.limit := Nat.pow_lt_pow_right (by decide) hwidth
  refine ⟨f.nearest num den, f.fits_nearest hlimit, dif_pos hlimit, ?_, hupper⟩
  rw [hone]
  exact Nat.mul_le_mul_right _ hlower

theorem abs_sub_finite {s t : Bool} {m n : Nat} (hm : f.Fits m) (hn : f.Fits n) :
    (finite s m hm - finite t n hn).abs = if signed s m = signed t n then zero false
      else round false (signed s m - signed t n).natAbs 1 := by
  have hsum : (finite s m hm).rank + (finite (!t) n hn).rank = signed s m - signed t n := by
    rw [rank_neg_finite, rank_finite, rank_finite, Int.sub_eq_add_neg]
  show ((finite s m hm).add (finite (!t) n hn)).abs = _
  unfold Binary.add
  dsimp only
  rw [hsum]
  split
  · next h => rw [if_pos (by omega)]; rfl
  · next h => rw [if_neg (by omega), abs_round]

/-- The larger of two magnitudes is one of the counts. -/
theorem max_abs_finite {s t : Bool} {m n : Nat} (hm : f.Fits m) (hn : f.Fits n) :
    ∃ k fits, (finite s m hm).abs.max (finite t n hn).abs = finite false k fits ∧ m ≤ k ∧ n ≤ k ∧
      (k = m ∨ k = n) := by
  unfold max
  split
  · next h =>
    have hlt : m < n := by simpa [lt, abs, isNaN, rank] using h
    exact ⟨n, hn, rfl, Nat.le_of_lt hlt, Nat.le_refl n, .inr rfl⟩
  · next h =>
    have hle : n ≤ m := by simpa [lt, abs, isNaN, rank] using h
    exact ⟨m, hm, rfl, Nat.le_refl m, hle, .inl rfl⟩

theorem isFinite_round_iff {s : Bool} {num den : Nat} :
    (round s num den : Binary f).isFinite = true ↔ f.nearest num den < f.limit := by
  unfold round
  split
  · next h => exact iff_of_true rfl h
  · next h => exact iff_of_false (fun h => by cases h) h

/-- Numbers of at most half the range have a difference in range. -/
theorem isFinite_sub_of_le {b : Nat} (hb : b + 1 < f.width) {s t : Bool} {m n : Nat} (hm : f.Fits m) (hn : f.Fits n)
    (hmb : m ≤ Nat.pow 2 b) (hnb : n ≤ Nat.pow 2 b) : (finite s m hm - finite t n hn).isFinite = true := by
  rw [← isFinite_abs, abs_sub_finite]
  split
  · rfl
  · have hle : (signed s m - signed t n).natAbs ≤ Nat.pow 2 (b + 1) * 1 := by
      calc (signed s m - signed t n).natAbs ≤ 2 * Nat.pow 2 b := natAbs_signed_sub_le hmb hnb s t
        _ = Nat.pow 2 (b + 1) * 1 := by rw [Nat.mul_one, Nat.pow_eq, Nat.pow_eq, Nat.pow_succ']
    exact isFinite_round_iff.2 (Nat.lt_of_le_of_lt (Format.nearest_le (f.gap_dvd_pow _) Nat.one_pos hle)
      (Nat.pow_lt_pow_right (by decide) hb))

/-- An integer well below the range is a finite number, and zero only if it is zero. -/
theorem ofInt_eq_finite {b : Nat} (hb : b + f.fractionBits < f.width) {n : Int} (hn : n.natAbs ≤ 2 ^ b) :
    ∃ m fits, (ofInt n : Binary f) = finite (decide (n < 0)) m fits ∧ m ≤ Nat.pow 2 (b + f.fractionBits) ∧
      (n ≠ 0 → m ≠ 0) := by
  have hle : n.natAbs * f.one ≤ Nat.pow 2 (b + f.fractionBits) * 1 := by
    calc n.natAbs * f.one ≤ 2 ^ b * f.one := Nat.mul_le_mul_right _ hn
      _ = Nat.pow 2 (b + f.fractionBits) * 1 := by rw [Nat.mul_one]; exact (Nat.pow_add ..).symm
  have hnearest := Format.nearest_le (f.gap_dvd_pow _) Nat.one_pos hle
  have hlimit : f.nearest (n.natAbs * f.one) 1 < f.limit :=
    Nat.lt_of_le_of_lt hnearest (Nat.pow_lt_pow_right (by decide) hb)
  refine ⟨_, f.fits_nearest hlimit, dif_pos hlimit, hnearest, fun hne => ?_⟩
  have hone : f.one ≤ f.nearest (n.natAbs * f.one) 1 := by
    refine Format.le_nearest (f.gap_dvd_pow _) Nat.one_pos ?_
    rw [Nat.mul_one]
    exact Nat.le_mul_of_pos_left _ (by omega)
  exact Nat.ne_of_gt (Nat.lt_of_lt_of_le f.one_pos hone)

/-- More than nothing and at most two. -/
def UpToTwo (x : Binary f) : Prop := ∃ m fits, x = finite false m fits ∧ 0 < m ∧ m ≤ 2 * f.one

theorem UpToTwo.ne_zero {x : Binary f} (h : x.UpToTwo) : x ≠ 0 := by
  obtain ⟨m, fits, rfl, hpos, -⟩ := h
  intro heq
  cases heq
  exact Nat.lt_irrefl 0 hpos

theorem UpToTwo.isFinite {x : Binary f} (h : x.UpToTwo) : x.isFinite = true := by
  obtain ⟨m, fits, rfl, -⟩ := h
  rfl

theorem UpToTwo.toRat_le {x : Binary f} (h : x.UpToTwo) : x.toRat ≤ 2 := by
  obtain ⟨m, fits, rfl, -, hle⟩ := h
  unfold toRat
  rw [div_le_iff₀ one_cast_pos]
  show ((m : Int) : ℚ) ≤ 2 * (f.one : ℚ)
  exact_mod_cast hle

end Binary

end GoalRegression
