/-
Binary numbers as rationals, and when rounding loses nothing. A count with few significant bits is a short
count times a power of two (`exists_short_of_gap_dvd`), and so it stays exact in a wider format and under
products that leave it short (`round_of_short`). Operations on numbers without a sign give numbers without one.
-/
import GoalRegression.Binary.Arithmetic
import Mathlib.Algebra.Order.Field.Basic
import Mathlib.Data.Rat.Cast.Order
import Mathlib.Tactic.Positivity

namespace GoalRegression

namespace Format

variable {f : Format} {n : Nat}

/-- An exact quotient is not moved by rounding if its significant bits fit. -/
theorem nearest_mul_of_gap_dvd {d : Nat} (hd : 0 < d) (h : f.gap n ∣ n) : f.nearest (n * d) d = n := by
  obtain ⟨q, hq⟩ := h
  have hgap := f.gap_pos n
  have hmod : n * d % (d * f.gap n) = 0 := by
    refine Nat.mod_eq_zero_of_dvd ⟨q, ?_⟩
    rw [Nat.mul_assoc, ← hq, Nat.mul_comm]
  have hdiv : n * d / (d * f.gap n) = n / f.gap n := by
    rw [← Nat.div_div_eq_div_mul, Nat.mul_div_cancel _ hd]
  unfold nearest roundHalfEven
  dsimp only
  rw [Nat.mul_div_cancel _ hd, hmod, hdiv, if_pos (Nat.mul_pos hd hgap)]
  exact Nat.div_mul_cancel ⟨q, hq⟩

/-- A count whose significant bits fit is a short count times a power of two. -/
theorem exists_short_of_gap_dvd (h : f.gap n ∣ n) :
    ∃ m k, m ≤ Nat.pow 2 f.precision ∧ n = m * Nat.pow 2 k := by
  obtain ⟨m, hm⟩ := h
  refine ⟨m, f.gapBits n, ?_, ?_⟩
  · have hlt := f.lt_pow_gapBits n
    simp only [Nat.pow_eq, Nat.pow_add] at hlt ⊢
    have hgap : f.gap n = 2 ^ f.gapBits n := rfl
    rw [hgap, Nat.mul_comm] at hm
    by_contra hle
    have := Nat.mul_le_mul_right (2 ^ f.gapBits n) (Nat.le_of_lt (Nat.lt_of_not_le hle))
    omega
  · rw [Nat.mul_comm]
    exact hm

theorem fits_of_short {m k : Nat} (hm : m ≤ Nat.pow 2 f.precision) (hlimit : m * Nat.pow 2 k < f.limit) :
    f.Fits (m * Nat.pow 2 k) := ⟨gap_dvd_of_le hm, hlimit⟩

end Format

namespace Binary

variable {f : Format}

/-- A quotient that is a short count times a power of two is rounded to itself. -/
theorem round_of_short {s : Bool} {m k d : Nat} (hd : 0 < d) (hm : m ≤ Nat.pow 2 f.precision)
    (hlimit : m * Nat.pow 2 k < f.limit) :
    round s (m * Nat.pow 2 k * d) d = (finite s (m * Nat.pow 2 k) (Format.fits_of_short hm hlimit) : Binary f) := by
  have hnearest : f.nearest (m * Nat.pow 2 k * d) d = m * Nat.pow 2 k :=
    Format.nearest_mul_of_gap_dvd hd (Format.gap_dvd_of_le hm)
  unfold round
  simp only [hnearest, dif_pos hlimit]

theorem convert_finite {g : Format} {s : Bool} {m : Nat} (h : f.Fits m) :
    ((finite s m h).convert : Binary g) = round s (m * g.one) f.one := rfl

theorem mul_finite {s t : Bool} {m n : Nat} (hm : f.Fits m) (hn : f.Fits n) :
    finite s m hm * finite t n hn = round (s ^^ t) (m * n) f.one := rfl

/-- A multiple of a number in a wider format is exact, if the format is wide enough for the factor. -/
theorem convert_mul_of_wider {f g : Format} {j c : Nat} (hone : g.one = Nat.pow 2 j * f.one) (hc : 0 < c)
    (hprecision : Nat.pow 2 f.precision * c ≤ Nat.pow 2 g.precision)
    (hlimit : f.limit * Nat.pow 2 j * c ≤ g.limit) {s : Bool} {m : Nat} (h : f.Fits m)
    (hfits : g.Fits (c * g.one)) :
    ∃ fits, ((finite s m h).convert : Binary g) * finite false (c * g.one) hfits =
      finite s (m * Nat.pow 2 j * c) fits := by
  obtain ⟨n, k, hn, rfl⟩ := Format.exists_short_of_gap_dvd h.1
  have hshift : n * Nat.pow 2 k * Nat.pow 2 j = n * Nat.pow 2 (k + j) := by
    simp only [Nat.pow_eq, Nat.pow_add, Nat.mul_assoc]
  have hnc : n * c ≤ Nat.pow 2 g.precision := Nat.le_trans (Nat.mul_le_mul_right c hn) hprecision
  have hn' : n ≤ Nat.pow 2 g.precision := Nat.le_trans (Nat.le_mul_of_pos_right n hc) hnc
  have hproduct : n * c * Nat.pow 2 (k + j) < g.limit := by
    calc n * c * Nat.pow 2 (k + j) = n * Nat.pow 2 k * Nat.pow 2 j * c := by
          rw [hshift, Nat.mul_right_comm]
      _ < f.limit * Nat.pow 2 j * c :=
          Nat.mul_lt_mul_of_pos_right (Nat.mul_lt_mul_of_pos_right h.2 (Nat.two_pow_pos j)) hc
      _ ≤ g.limit := hlimit
  have hconverted : n * Nat.pow 2 (k + j) < g.limit := by
    refine Nat.lt_of_le_of_lt (Nat.mul_le_mul_right _ ?_) hproduct
    exact Nat.le_mul_of_pos_right n hc
  -- neither the change of format nor the product needs more significant bits than there are
  have hconvert : ((finite s (n * Nat.pow 2 k) h).convert : Binary g) =
      finite s (n * Nat.pow 2 (k + j)) (Format.fits_of_short hn' hconverted) := by
    rw [convert_finite, hone, ← Nat.mul_assoc, hshift]
    exact round_of_short f.one_pos hn' hconverted
  have hmul := round_of_short (f := g) (s := s) g.one_pos hnc hproduct
  have hunits : n * Nat.pow 2 k * Nat.pow 2 j * c = n * c * Nat.pow 2 (k + j) := by
    rw [hshift, Nat.mul_right_comm]
  refine ⟨hunits ▸ Format.fits_of_short hnc hproduct, ?_⟩
  rw [hconvert, mul_finite, Bool.xor_false, ← Nat.mul_assoc, Nat.mul_right_comm n, hmul]
  simp only [hunits]

/-! ## Rational values -/

/-- A finite number as a rational. The infinities stand at the ends of the range, and the not-a-number at
zero. -/
def toRat (x : Binary f) : ℚ := x.rank / f.one

theorem one_cast_pos : (0 : ℚ) < f.one := by exact_mod_cast f.one_pos

theorem toRat_nonneg_iff {x : Binary f} : 0 ≤ x.toRat ↔ 0 ≤ x.rank := by
  unfold toRat
  rw [le_div_iff₀ one_cast_pos, zero_mul]
  exact_mod_cast Iff.rfl

@[simp] theorem toRat_zero (s : Bool) : (zero s : Binary f).toRat = 0 := by
  cases s <;> simp [toRat, zero, rank]

/-! ## Numbers without a sign -/

theorem rank_nonneg {x : Binary f} (h : x.isNegative = false) : 0 ≤ x.rank := by
  cases x with
  | nan => exact Int.le_refl 0
  | infinity s =>
    obtain rfl : s = false := h
    exact Int.natCast_nonneg _
  | finite s m _ =>
    obtain rfl : s = false := h
    exact Int.natCast_nonneg _

theorem isNegative_round (s : Bool) (num den : Nat) : (round s num den : Binary f).isNegative = s := by
  unfold round
  split <;> rfl

theorem isNegative_one : (1 : Binary f).isNegative = false := by
  show (round (decide ((1 : Int) < 0)) _ _ : Binary f).isNegative = false
  rw [isNegative_round]
  rfl

theorem isNegative_abs (x : Binary f) : x.abs.isNegative = false := by
  cases x <;> rfl

theorem isNegative_max {x y : Binary f} (hx : x.isNegative = false) (hy : y.isNegative = false) :
    (x.max y).isNegative = false := by
  unfold max
  split
  · exact hy
  · exact hx

theorem isNegative_convert {g : Format} {x : Binary f} (h : x.isNegative = false) :
    (x.convert : Binary g).isNegative = false := by
  cases x with
  | nan => rfl
  | infinity s => exact h
  | finite s m _ => exact (isNegative_round ..).trans h

theorem isNegative_div {x y : Binary f} (hx : x.isNegative = false) (hy : y.isNegative = false) :
    (x / y).isNegative = false := by
  show (x.div y).isNegative = false
  cases x <;> cases y <;> simp only [Binary.div]
  · rfl
  · rfl
  · rfl
  · rfl
  · rfl
  · simp_all [isNegative]
  · rfl
  · simp_all [isNegative, zero]
  · simp only [isNegative] at hx hy
    subst hx hy
    split
    · split <;> rfl
    · exact isNegative_round ..

theorem isNegative_add {x y : Binary f} (hx : x.isNegative = false) (hy : y.isNegative = false) :
    (x + y).isNegative = false := by
  show (x.add y).isNegative = false
  cases x <;> cases y <;> simp only [Binary.add]
  · rfl
  · rfl
  · rfl
  · rfl
  · simp only [isNegative] at hx hy
    subst hx hy
    rfl
  · exact hx
  · rfl
  · exact hy
  · -- the sign of a sum is that of the ranks together
    have hxr := rank_nonneg hx
    have hyr := rank_nonneg hy
    simp only [isNegative] at hx
    subst hx
    split
    · rfl
    · rw [isNegative_round, decide_eq_false_iff_not]
      omega

end Binary

end GoalRegression
