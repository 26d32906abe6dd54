/-
Rounding as a function of a quotient. It depends on the quotient only (`nearest_congr`) and never inverts an order
(`nearest_mono_left`). So it stays on the same side of every count that it would not move (`le_nearest`, `nearest_le`),
and what is out of range stays out of range (`limit_le_nearest`).
-/
import GoalRegression.Proofs.Binary.Exact

namespace GoalRegression

/-! ## To an integer -/

theorem roundHalfEven_mul_right {k : Nat} (hk : 0 < k) (num den : Nat) :
    roundHalfEven (num * k) (den * k) = roundHalfEven num den := by
  have hmul (a b : Nat) : 2 * (a * k) < b * k ↔ 2 * a < b := by
    rw [← Nat.mul_assoc, Nat.mul_lt_mul_right hk]
  have hmul' (a b : Nat) : b * k < 2 * (a * k) ↔ b < 2 * a := by
    rw [← Nat.mul_assoc, Nat.mul_lt_mul_right hk]
  unfold roundHalfEven
  simp only [Nat.mul_div_mul_right _ _ hk, Nat.mul_mod_mul_right, hmul, hmul']

theorem div_le_roundHalfEven (num den : Nat) : num / den ≤ roundHalfEven num den := by
  unfold roundHalfEven
  dsimp only
  split
  · exact Nat.le_refl _
  · split <;> omega

theorem roundHalfEven_mono {m n : Nat} (h : m ≤ n) (den : Nat) : roundHalfEven m den ≤ roundHalfEven n den := by
  rcases Nat.lt_or_eq_of_le (Nat.div_le_div_right (c := den) h) with hlt | heq
  · calc roundHalfEven m den ≤ m / den + 1 := Format.roundHalfEven_le ..
      _ ≤ n / den := hlt
      _ ≤ roundHalfEven n den := div_le_roundHalfEven ..
  · -- of two quotients with the same integer part the remainders decide
    have hmod : m % den ≤ n % den := by
      have hm := Nat.div_add_mod m den
      have hn := Nat.div_add_mod n den
      rw [heq] at hm
      omega
    unfold roundHalfEven
    dsimp only
    rw [heq]
    split
    · split
      · exact Nat.le_refl _
      · split <;> omega
    · split
      · rw [if_neg (by omega), if_pos (by omega)]
      · rw [if_neg (by omega)]
        split <;> omega

namespace Format

variable (f : Format)

/-! ## To a count -/

theorem nearest_mul_right {k : Nat} (hk : 0 < k) (num den : Nat) :
    f.nearest (num * k) (den * k) = f.nearest num den := by
  unfold nearest
  rw [Nat.mul_div_mul_right _ _ hk, Nat.mul_right_comm, roundHalfEven_mul_right hk]

/-- Equal quotients are rounded to the same count. -/
theorem nearest_congr {a b c d : Nat} (hb : 0 < b) (hd : 0 < d) (h : a * d = c * b) :
    f.nearest a b = f.nearest c d := by
  rw [← f.nearest_mul_right hd, h, Nat.mul_comm b d, f.nearest_mul_right hb]

theorem gapBits_mono {m n : Nat} (h : m ≤ n) : f.gapBits m ≤ f.gapBits n :=
  gapBits_le_of_lt (Nat.lt_of_le_of_lt h (f.lt_pow_gapBits n))

/-- With the gap of a count of its size, a quotient is rounded to no less than the leading bit of the size. -/
theorem pow_le_nearest {num den : Nat} (h : 0 < f.gapBits (num / den)) :
    Nat.pow 2 (f.precision + f.gapBits (num / den) - 1) ≤ f.nearest num den := by
  have hprecision := f.precision_pos
  have hq : num / den ≠ 0 := by
    intro hzero
    have : f.gapBits 0 = 0 := Nat.le_zero.1 (gapBits_le_of_lt (Nat.two_pow_pos _))
    rw [hzero, this] at h
    exact Nat.lt_irrefl 0 h
  have hlog : f.precision + f.gapBits (num / den) - 1 = (num / den).log2 := by
    unfold gapBits at h ⊢
    omega
  have hsplit : f.precision + f.gapBits (num / den) - 1 = (f.precision - 1) + f.gapBits (num / den) := by omega
  have hlead : Nat.pow 2 (f.precision - 1) * f.gap (num / den) ≤ num / den := by
    calc Nat.pow 2 (f.precision - 1) * f.gap (num / den) = 2 ^ (num / den).log2 := by
          rw [← hlog, hsplit, Nat.pow_add]; rfl
      _ ≤ num / den := Nat.log2_self_le hq
  calc Nat.pow 2 (f.precision + f.gapBits (num / den) - 1)
      = Nat.pow 2 (f.precision - 1) * f.gap (num / den) := by rw [hsplit]; exact Nat.pow_add ..
    _ ≤ num / den / f.gap (num / den) * f.gap (num / den) :=
        Nat.mul_le_mul_right _ ((Nat.le_div_iff_mul_le (f.gap_pos _)).2 hlead)
    _ ≤ f.nearest num den := by
        rw [Nat.div_div_eq_div_mul]
        exact Nat.mul_le_mul_right _ (div_le_roundHalfEven ..)

theorem nearest_le_pow (num den : Nat) :
    f.nearest num den ≤ Nat.pow 2 (f.precision + f.gapBits (num / den)) := by
  calc f.nearest num den ≤ Nat.pow 2 f.precision * f.gap (num / den) :=
        Nat.mul_le_mul_right _ (f.roundHalfEven_gap_le num den)
    _ = Nat.pow 2 (f.precision + f.gapBits (num / den)) := (Nat.pow_add ..).symm

/-- The larger of two counts of one denominator is rounded to the larger count. -/
theorem nearest_mono_left {m n : Nat} (h : m ≤ n) (den : Nat) : f.nearest m den ≤ f.nearest n den := by
  rcases Nat.lt_or_eq_of_le (f.gapBits_mono (Nat.div_le_div_right (c := den) h)) with hlt | heq
  · -- between the two lies the power of two at which the gap grows
    calc f.nearest m den ≤ Nat.pow 2 (f.precision + f.gapBits (m / den)) := f.nearest_le_pow m den
      _ ≤ Nat.pow 2 (f.precision + f.gapBits (n / den) - 1) := Nat.pow_le_pow_right (by decide) (by omega)
      _ ≤ f.nearest n den := f.pow_le_nearest (by omega)
  · have hgap : f.gap (m / den) = f.gap (n / den) := congrArg (Nat.pow 2) heq
    unfold nearest
    rw [hgap]
    exact Nat.mul_le_mul_right _ (roundHalfEven_mono h _)

variable {f} {n num den : Nat}

theorem le_nearest (hn : f.gap n ∣ n) (hden : 0 < den) (h : n * den ≤ num) : n ≤ f.nearest num den := by
  calc n = f.nearest (n * den) den := (nearest_mul_of_gap_dvd hden hn).symm
    _ ≤ f.nearest num den := f.nearest_mono_left h den

theorem nearest_le (hn : f.gap n ∣ n) (hden : 0 < den) (h : num ≤ n * den) : f.nearest num den ≤ n := by
  calc f.nearest num den ≤ f.nearest (n * den) den := f.nearest_mono_left h den
    _ = n := nearest_mul_of_gap_dvd hden hn

theorem gap_dvd_pow (f : Format) (k : Nat) : f.gap (Nat.pow 2 k) ∣ Nat.pow 2 k := by
  have := gap_dvd_of_le (f := f) (m := 1) (k := k) (Nat.two_pow_pos _)
  rwa [Nat.one_mul] at this

/-! ## Far from the range -/

variable (f)

/-- A quotient below one half is rounded to nothing. -/
theorem nearest_eq_zero (h : 2 * num < den) : f.nearest num den = 0 := by
  have hdiv : num / den = 0 := Nat.div_eq_of_lt (by omega)
  have hgap : f.gap 0 = 1 := by
    have : f.gapBits 0 = 0 := Nat.le_zero.1 (gapBits_le_of_lt (Nat.two_pow_pos _))
    rw [gap, this]
  unfold nearest roundHalfEven
  dsimp only
  rw [hdiv, hgap, Nat.mul_one, Nat.mul_one, Nat.mod_eq_of_lt (by omega), if_pos h, hdiv]

/-- A quotient out of range stays out of range. -/
theorem limit_le_nearest (h : f.limit ≤ num / den) : f.limit ≤ f.nearest num den := by
  rcases Nat.eq_zero_or_pos den with rfl | hden
  · rw [Nat.div_zero] at h
    exact absurd h (Nat.not_le_of_lt f.limit_pos)
  · exact le_nearest (f.gap_dvd_pow f.width) hden ((Nat.le_div_iff_mul_le hden).1 h)

end Format

namespace Binary

variable {f : Format}

theorem round_congr {s : Bool} {a b c d : Nat} (hb : 0 < b) (hd : 0 < d) (h : a * d = c * b) :
    (round s a b : Binary f) = round s c d := by
  unfold round
  simp only [f.nearest_congr hb hd h]

theorem round_of_limit_le {s : Bool} {num den : Nat} (h : f.limit ≤ f.nearest num den) :
    round s num den = (infinity s : Binary f) := dif_neg (Nat.not_lt.2 h)

theorem round_of_nearest_eq {s : Bool} {num den units : Nat} (h : f.nearest num den = units)
    (hfits : f.Fits units) : round s num den = finite s units hfits := by
  subst h
  exact dif_pos hfits.2

end Binary

end GoalRegression
