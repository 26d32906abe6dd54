/-
Operations that keep the order of numbers. A finite number is a sign and a count, an operation that keeps the sign and
never inverts the order of counts never inverts the order of numbers (`le_map`), and a change of format and the product
with a positive number are such operations (`le_convert`, `le_mul_finite`). So is the integer part
(`truncateWithin_le`), also that of products with zero or infinity, where the two ends of the range, the zeros and what
is no number meet (`truncateWithin_mul_le`).
-/
import GoalRegression.Proofs.Binary.Rounding

namespace GoalRegression.Binary

variable {f g : Format} {x y c : Binary f} {lo hi : Int}

/-- Smaller or equal. Nothing compares with the not-a-number. -/
def le (x y : Binary f) : Bool := !x.isNaN && !y.isNaN && decide (x.rank ≤ y.rank)

theorem le_iff : x.le y = true ↔ x.isNaN = false ∧ y.isNaN = false ∧ x.rank ≤ y.rank := by
  simp [le, and_assoc]

/-! ## Signs and counts -/

/-- A count with a sign. -/
def signed (s : Bool) (m : Nat) : Int := if s then -(m : Int) else m

theorem rank_finite {s : Bool} {m : Nat} (h : f.Fits m) : (finite s m h).rank = signed s m := rfl

theorem rank_infinity (s : Bool) : (infinity s : Binary f).rank = signed s f.limit := rfl

/-- What keeps zero and the order of counts keeps the order of counts with a sign. -/
theorem signed_le_signed {G : Nat → Nat} (hmono : Monotone G) (hzero : G 0 = 0) {s t : Bool} {m n : Nat}
    (h : signed s m ≤ signed t n) : signed s (G m) ≤ signed t (G n) := by
  cases s <;> cases t <;> simp only [signed, Bool.false_eq_true, if_true, if_false] at h ⊢
  · have := hmono (show m ≤ n by omega)
    omega
  · -- a count without a sign is below one with a sign only if both are zero
    obtain rfl : m = 0 := by omega
    obtain rfl : n = 0 := by omega
    simp [hzero]
  · omega
  · have := hmono (show n ≤ m by omega)
    omega

theorem rank_bounds (x : Binary f) : -(f.limit : Int) ≤ x.rank ∧ x.rank ≤ f.limit := by
  cases x with
  | nan => simp [rank]
  | infinity s => cases s <;> simp [rank]
  | finite s m h =>
    have := h.2
    cases s <;> simp only [rank, Bool.false_eq_true, if_true, if_false] <;> omega

/-- Above the positive infinity there is only itself. -/
theorem eq_infinity_of_le (h : (infinity false : Binary f).le x = true) : x = infinity false := by
  obtain ⟨-, hx, hrank⟩ := le_iff.1 h
  have hlimit := f.limit_pos
  cases x with
  | nan => cases hx
  | infinity s =>
    cases s with
    | false => rfl
    | true =>
      simp only [rank, Bool.false_eq_true, if_true, if_false] at hrank
      omega
  | finite s m hm =>
    have : (finite s m hm).rank < (infinity false : Binary f).rank := rank_finite_lt
    omega

/-- Below the negative infinity there is only itself. -/
theorem eq_infinity_of_le_infinity (h : x.le (infinity true) = true) : x = infinity true := by
  obtain ⟨hx, -, hrank⟩ := le_iff.1 h
  have hlimit := f.limit_pos
  cases x with
  | nan => cases hx
  | infinity s =>
    cases s with
    | true => rfl
    | false =>
      simp only [rank, Bool.false_eq_true, if_true, if_false] at hrank
      omega
  | finite s m hm =>
    have := hm.2
    cases s <;> simp only [rank, Bool.false_eq_true, if_true, if_false] at hrank <;> omega

/-! ## Rounding -/

@[simp] theorem isNaN_round (s : Bool) (num den : Nat) : (round s num den : Binary f).isNaN = false := by
  unfold round
  split <;> rfl

theorem rank_round (s : Bool) (num den : Nat) :
    (round s num den : Binary f).rank = signed s (min (f.nearest num den) f.limit) := by
  unfold round
  split
  · next h => rw [rank_finite, Nat.min_eq_left (Nat.le_of_lt h)]
  · next h => rw [rank_infinity, Nat.min_eq_right (Nat.le_of_not_lt h)]

/-- How a multiple of a count is rounded depends on the count without inverting the order. -/
theorem monotone_min_nearest (f : Format) (k den : Nat) : Monotone fun m => min (f.nearest (m * k) den) f.limit :=
  fun _ _ h => min_le_min_right f.limit (f.nearest_mono_left (Nat.mul_le_mul_right k h) den)

theorem min_nearest_zero (f : Format) (k : Nat) {den : Nat} (hden : 0 < den) :
    min (f.nearest (0 * k) den) f.limit = 0 := by
  rw [Nat.zero_mul, f.nearest_eq_zero (show 2 * 0 < den from hden), Nat.zero_min]

/-- An operation keeps the order of numbers if it keeps the infinities, and the sign and the order of counts. -/
theorem le_map {F : Binary f → Binary g} {G : Nat → Nat} (hinfinity : ∀ s, F (infinity s) = infinity s)
    (hnan : ∀ s m h, (F (finite s m h)).isNaN = false) (hrank : ∀ s m h, (F (finite s m h)).rank = signed s (G m))
    (hmono : Monotone G) (hzero : G 0 = 0) (h : x.le y = true) : (F x).le (F y) = true := by
  obtain ⟨hx, hy, hxy⟩ := le_iff.1 h
  have hF : ∀ z : Binary f, z.isNaN = false → (F z).isNaN = false := by
    intro z hz
    cases z with
    | nan => cases hz
    | infinity s => rw [hinfinity]; rfl
    | finite s m hm => exact hnan s m hm
  refine le_iff.2 ⟨hF x hx, hF y hy, ?_⟩
  cases x with
  | nan => cases hx
  | infinity s =>
    cases s with
    | true =>
      rw [hinfinity]
      exact (rank_bounds (F y)).1
    | false => rw [eq_infinity_of_le h]
  | finite s m hm =>
    cases y with
    | nan => cases hy
    | infinity t =>
      cases t with
      | true => cases eq_infinity_of_le_infinity h
      | false =>
        rw [hinfinity]
        exact (rank_bounds (F (finite s m hm))).2
    | finite t n hn =>
      rw [hrank, hrank]
      exact signed_le_signed hmono hzero hxy

/-- A change of format does not invert the order. -/
theorem le_convert (h : x.le y = true) : (x.convert : Binary g).le y.convert = true :=
  le_map (fun _ => rfl) (fun _ _ _ => isNaN_round ..) (fun _ _ _ => rank_round ..) (monotone_min_nearest g g.one f.one)
    (min_nearest_zero g g.one f.one_pos) h

/-- The product with a positive number does not invert the order. -/
theorem le_mul_finite {n : Nat} (hn : f.Fits n) (hpos : n ≠ 0) (h : x.le y = true) :
    (x * finite false n hn).le (y * finite false n hn) = true := by
  refine le_map (F := fun z => z * finite false n hn) (G := fun m => min (f.nearest (m * n) f.one) f.limit)
    (fun s => ?_) (fun s m hm => ?_) (fun s m hm => ?_) (monotone_min_nearest f n f.one)
    (min_nearest_zero f n f.one_pos) h
  · show (if n = 0 then nan else infinity (s ^^ false) : Binary f) = infinity s
    rw [if_neg hpos, Bool.xor_false]
  · show (finite s m hm * finite false n hn).isNaN = false
    rw [mul_finite, isNaN_round]
  · show (finite s m hm * finite false n hn).rank = _
    rw [mul_finite, Bool.xor_false, rank_round]

/-! ## The integer part -/

theorem clamp_bounds (h : lo ≤ hi) (n : Int) : lo ≤ clamp lo hi n ∧ clamp lo hi n ≤ hi := by
  unfold clamp
  split_ifs <;> omega

theorem clamp_mono (h : lo ≤ hi) {m n : Int} (hmn : m ≤ n) : clamp lo hi m ≤ clamp lo hi n := by
  unfold clamp
  split_ifs <;> omega

theorem truncateWithin_finite {s : Bool} {m : Nat} (h : f.Fits m) :
    truncateWithin lo hi (finite s m h) = clamp lo hi (signed s (m / f.one)) := rfl

theorem truncateWithin_bounds (hlo : lo ≤ 0) (hhi : 0 ≤ hi) (x : Binary f) :
    lo ≤ truncateWithin lo hi x ∧ truncateWithin lo hi x ≤ hi := by
  cases x with
  | nan => exact ⟨hlo, hhi⟩
  | infinity s => cases s <;> simp [truncateWithin] <;> omega
  | finite s m h => exact clamp_bounds (by omega) _

/-- Cutting numbers to integers does not invert the order. -/
theorem truncateWithin_le (hlo : lo ≤ 0) (hhi : 0 ≤ hi) (h : x.le y = true) :
    truncateWithin lo hi x ≤ truncateWithin lo hi y := by
  obtain ⟨hx, hy, hxy⟩ := le_iff.1 h
  cases x with
  | nan => cases hx
  | infinity s =>
    cases s with
    | true => exact (truncateWithin_bounds hlo hhi y).1
    | false => rw [eq_infinity_of_le h]
  | finite s m hm =>
    cases y with
    | nan => cases hy
    | infinity t =>
      cases t with
      | true => cases eq_infinity_of_le_infinity h
      | false => exact (truncateWithin_bounds hlo hhi _).2
    | finite t n hn =>
      rw [truncateWithin_finite, truncateWithin_finite]
      exact clamp_mono (by omega) (signed_le_signed (G := (· / f.one)) (fun _ _ => Nat.div_le_div_right)
        (Nat.zero_div _) hxy)

/-- Times zero, every number is cut to zero: the infinities give what is no number. -/
theorem truncateWithin_mul_zero (hlo : lo ≤ 0) (hhi : 0 ≤ hi) (x : Binary f) (s : Bool) :
    truncateWithin lo hi (x * zero s) = 0 := by
  cases x with
  | nan | infinity => rfl
  | finite t m hm =>
    have hzero : f.nearest (m * 0) f.one = 0 := f.nearest_eq_zero f.one_pos
    show truncateWithin lo hi (round (t ^^ s) (m * 0) f.one : Binary f) = 0
    rw [round_of_nearest_eq hzero f.fits_zero, truncateWithin_finite, Nat.zero_div]
    have hcount : signed (t ^^ s) 0 = 0 := by cases t ^^ s <;> rfl
    unfold clamp
    rw [hcount, if_neg (by omega), if_neg (by omega)]

/-- Times infinity, a number goes to the end of the range on its side, and a zero gives what is no number. -/
theorem truncateWithin_mul_infinity (hx : x.isNaN = false) :
    truncateWithin lo hi (x * infinity false) = if x.rank < 0 then lo else if 0 < x.rank then hi else 0 := by
  have hlimit := f.limit_pos
  cases x with
  | nan => cases hx
  | infinity s =>
    show truncateWithin lo hi (infinity (s ^^ false) : Binary f) = _
    cases s with
    | true => rw [if_pos (by simp only [rank, if_true]; omega)]; rfl
    | false =>
      have hrank : 0 < (infinity false : Binary f).rank := by simp only [rank, Bool.false_eq_true, if_false]; omega
      rw [if_neg (by omega), if_pos hrank]
      rfl
  | finite s m hm =>
    show truncateWithin lo hi (if m = 0 then nan else infinity (s ^^ false) : Binary f) = _
    rw [rank_finite]
    unfold signed
    by_cases hm : m = 0
    · subst hm
      cases s <;> rfl
    · rw [if_neg hm]
      cases s with
      | true => rw [if_pos (by simp only [if_true]; omega)]; rfl
      | false =>
        simp only [Bool.false_eq_true, if_false]
        rw [if_neg (by omega), if_pos (by omega)]
        rfl

/-- Multiplying by a factor without a sign and cutting to an integer does not invert the order, whatever the factor is,
as long as it is a number. -/
theorem truncateWithin_mul_le (hlo : lo ≤ 0) (hhi : 0 ≤ hi) (hnan : c.isNaN = false) (hsign : c.isNegative = false)
    (h : x.le y = true) : truncateWithin lo hi (x * c) ≤ truncateWithin lo hi (y * c) := by
  cases c with
  | nan => cases hnan
  | infinity s =>
    obtain rfl : s = false := hsign
    obtain ⟨hx, hy, hxy⟩ := le_iff.1 h
    rw [truncateWithin_mul_infinity hx, truncateWithin_mul_infinity hy]
    split_ifs <;> omega
  | finite s n hn =>
    obtain rfl : s = false := hsign
    by_cases hzero : n = 0
    · subst hzero
      have hx := truncateWithin_mul_zero hlo hhi x false
      have hy := truncateWithin_mul_zero hlo hhi y false
      exact Int.le_of_eq (hx.trans hy.symm)
    · exact truncateWithin_le hlo hhi (le_mul_finite hn hzero h)

end GoalRegression.Binary
