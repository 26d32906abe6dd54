/-
Formats of binary numbers. A format counts in units of one fixed power of two, the distance between
its smallest neighbours; a count is representable when its significant bits fit the precision and the
count stays below the format's limit. `nearest` rounds a quotient to a representable count, ties to
even; it is the only rounding in the library. Main statements: what `nearest` delivers is representable
within range, and a representable count is not moved.
-/

namespace GoalRegression

/-- A binary number format: numbers are counts of two to the power `-fractionBits`. -/
structure Format where
  /-- How many leading bits of a count may be significant. -/
  precision : Nat
  /-- One is two to this power units. -/
  fractionBits : Nat
  /-- Counts from two to this power on are out of range. -/
  width : Nat
  precision_pos : 0 < precision := by decide
deriving DecidableEq

/-- Twenty-four significant bits, range up to `2 ^ 128`. -/
def Format.single : Format := { precision := 24, fractionBits := 149, width := 277 }

/-- Fifty-three significant bits, range up to `2 ^ 1024`. -/
def Format.double : Format := { precision := 53, fractionBits := 1074, width := 2098 }

/-! ## Rounding a quotient -/

/-- `num / den` to the nearest integer, halves to the even neighbour. -/
def roundHalfEven (num den : Nat) : Nat :=
  let below := num / den
  let twice := 2 * (num % den)
  if twice < den then below else if den < twice then below + 1 else below + below % 2

namespace Format

/-- How many low bits of a count of the size of `n` have to be zero. -/
def gapBits (f : Format) (n : Nat) : Nat := n.log2 + 1 - f.precision

/-- The distance between neighbours among the counts of the size of `n`. -/
def gap (f : Format) (n : Nat) : Nat := Nat.pow 2 (f.gapBits n)

def one (f : Format) : Nat := Nat.pow 2 f.fractionBits

def limit (f : Format) : Nat := Nat.pow 2 f.width

/-- The representable counts. -/
def Fits (f : Format) (n : Nat) : Prop := f.gap n ∣ n ∧ n < f.limit

instance (f : Format) (n : Nat) : Decidable (f.Fits n) := by unfold Fits; infer_instance

/-- The count nearest to `num / den` whose significant bits fit the precision, halves to the even
neighbour. The range is not bounded here. -/
def nearest (f : Format) (num den : Nat) : Nat :=
  roundHalfEven num (den * f.gap (num / den)) * f.gap (num / den)

/-! ## What rounding delivers is representable -/

theorem gap_pos (f : Format) (n : Nat) : 0 < f.gap n := Nat.two_pow_pos _

theorem one_pos (f : Format) : 0 < f.one := Nat.two_pow_pos _

theorem limit_pos (f : Format) : 0 < f.limit := Nat.two_pow_pos _

theorem gapBits_le_of_lt {f : Format} {n k : Nat} (h : n < Nat.pow 2 (f.precision + k)) :
    f.gapBits n ≤ k := by
  unfold gapBits
  by_cases hn : n = 0
  · subst hn
    have := f.precision_pos
    have : Nat.log2 0 = 0 := rfl
    omega
  · have := (Nat.log2_lt hn).2 h
    omega

/-- A count has at most as many bits as the precision and its gap together. -/
theorem lt_pow_gapBits (f : Format) (n : Nat) : n < Nat.pow 2 (f.precision + f.gapBits n) := by
  have h : n < Nat.pow 2 (n.log2 + 1) := Nat.lt_log2_self
  refine Nat.lt_of_lt_of_le h (Nat.pow_le_pow_right (by decide) ?_)
  unfold gapBits
  omega

theorem roundHalfEven_le (num den : Nat) : roundHalfEven num den ≤ num / den + 1 := by
  unfold roundHalfEven
  dsimp only
  split
  · omega
  · split
    · omega
    · have := Nat.mod_lt (num / den) (show 2 > 0 by decide)
      omega

theorem roundHalfEven_gap_le (f : Format) (num den : Nat) :
    roundHalfEven num (den * f.gap (num / den)) ≤ Nat.pow 2 f.precision := by
  have h := roundHalfEven_le num (den * f.gap (num / den))
  rw [← Nat.div_div_eq_div_mul] at h
  have hlt := f.lt_pow_gapBits (num / den)
  simp only [Nat.pow_eq, Nat.pow_add] at hlt
  have : num / den / f.gap (num / den) < Nat.pow 2 f.precision :=
    Nat.div_lt_of_lt_mul (by rw [Nat.mul_comm]; exact hlt)
  omega

theorem gap_dvd_of_le {f : Format} {m k : Nat} (h : m ≤ Nat.pow 2 f.precision) :
    f.gap (m * Nat.pow 2 k) ∣ m * Nat.pow 2 k := by
  simp only [gap, Nat.pow_eq] at h ⊢
  rcases Nat.lt_or_eq_of_le h with h | h
  · have : f.gapBits (m * 2 ^ k) ≤ k := gapBits_le_of_lt (by
      simp only [Nat.pow_eq, Nat.pow_add]
      exact Nat.mul_lt_mul_of_pos_right h (Nat.two_pow_pos k))
    exact Nat.dvd_trans (Nat.pow_dvd_pow 2 this) (Nat.dvd_mul_left _ _)
  · have hp := f.precision_pos
    have hlt : 2 ^ (f.precision + k) < Nat.pow 2 (f.precision + (k + 1)) :=
      Nat.pow_lt_pow_right (by decide) (by omega)
    rw [h, ← Nat.pow_add]
    exact Nat.pow_dvd_pow 2 (Nat.le_trans (gapBits_le_of_lt hlt) (by omega))

/-- A rounded count has no more significant bits than the precision. -/
theorem gap_dvd_nearest (f : Format) (num den : Nat) : f.gap (f.nearest num den) ∣ f.nearest num den :=
  gap_dvd_of_le (f.roundHalfEven_gap_le num den)

/-- Within range, a rounded count is representable. -/
theorem fits_nearest {f : Format} {num den : Nat} (h : f.nearest num den < f.limit) :
    f.Fits (f.nearest num den) :=
  ⟨f.gap_dvd_nearest num den, h⟩

theorem fits_zero (f : Format) : f.Fits 0 := ⟨Nat.dvd_zero _, f.limit_pos⟩

end Format

end GoalRegression
