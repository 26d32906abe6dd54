/-
Reading decimals as binary numbers. What is settled without a power of ten is settled rightly
(`toBinary_eq_round`), and rounding depends on a quotient only, so a decimal may change its number of zeros
(`toBinary_shift`), and the shortest decimal of a count reads back as the count (`toBinary_shortest`).
-/
import GoalRegression.Decimal.Shortest
import GoalRegression.Proofs.Binary.Rounding
import Mathlib.Tactic.Ring

namespace GoalRegression

/-! ## Decimals by their value -/

namespace Decimal

variable {f : Format}

/-- Reading a decimal rounds it once, also where the power of ten is not formed. -/
theorem toBinary_eq_round (s : Bool) (d : Decimal) :
    (d.toBinary s : Binary f) =
      .round s (d.digits * Nat.pow 10 d.exponent.toNat * f.one) (Nat.pow 10 (-d.exponent).toNat) := by
  obtain ⟨n, e⟩ := d
  unfold toBinary
  dsimp only
  split
  · next hn =>
    subst hn
    rw [Nat.zero_mul, Nat.zero_mul]
    exact (Binary.round_of_nearest_eq (f.nearest_eq_zero (Nat.pow_pos (by decide))) f.fits_zero).symm
  next hn =>
  have hpos : 1 ≤ n := Nat.one_le_iff_ne_zero.2 hn
  split
  · next hlarge =>
    -- ten to the exponent alone is out of range
    have hneg : (-e).toNat = 0 := by omega
    have hlimit : f.limit ≤ n * Nat.pow 10 e.toNat * f.one := by
      calc f.limit ≤ Nat.pow 2 e.toNat := Nat.pow_le_pow_right (by decide) (by omega)
        _ ≤ Nat.pow 10 e.toNat := Nat.pow_le_pow_left (by decide) _
        _ ≤ n * Nat.pow 10 e.toNat := Nat.le_mul_of_pos_left _ hpos
        _ ≤ n * Nat.pow 10 e.toNat * f.one := Nat.le_mul_of_pos_right _ f.one_pos
    rw [hneg]
    exact (Binary.round_of_limit_le (f.limit_le_nearest (hlimit.trans_eq (Nat.div_one _).symm))).symm
  · split
    · next hsmall =>
      -- ten to the exponent is more than twice as small as a unit is large
      have hexp : e.toNat = 0 := by omega
      have hlt : 2 * (n * f.one) < Nat.pow 10 (-e).toNat := by
        calc 2 * (n * f.one) < 2 * (2 ^ (n.log2 + 1) * 2 ^ f.fractionBits) :=
              Nat.mul_lt_mul_of_pos_left
                (Nat.mul_lt_mul_of_pos_right Nat.lt_log2_self f.one_pos) (by decide)
          _ = 2 ^ (n.log2 + 2 + f.fractionBits) := by ring
          _ ≤ Nat.pow 2 (-e).toNat := Nat.pow_le_pow_right (by decide) (by omega)
          _ ≤ Nat.pow 10 (-e).toNat := Nat.pow_le_pow_left (by decide) _
      rw [hexp]
      exact (Binary.round_of_nearest_eq (f.nearest_eq_zero (by simpa using hlt)) f.fits_zero).symm
    · rfl

theorem toBinary_zero {d : Decimal} (h : d.digits = 0) (s : Bool) : (d.toBinary s : Binary f) = .zero s :=
  if_pos h

/-- Zeros at the end of the digits may go into the exponent. -/
theorem toBinary_shift (s : Bool) (n k : Nat) (e : Int) :
    ((⟨n * Nat.pow 10 k, e⟩ : Decimal).toBinary s : Binary f) = (⟨n, e + k⟩ : Decimal).toBinary s := by
  rw [toBinary_eq_round, toBinary_eq_round]
  refine Binary.round_congr (Nat.pow_pos (by decide)) (Nat.pow_pos (by decide)) ?_
  have hexp : k + e.toNat + (-(e + k)).toNat = (e + k).toNat + (-e).toNat := by omega
  simp only [Nat.pow_eq]
  calc n * 10 ^ k * 10 ^ e.toNat * f.one * 10 ^ (-(e + k)).toNat
      = n * f.one * 10 ^ (k + e.toNat + (-(e + k)).toNat) := by ring
    _ = n * f.one * 10 ^ ((e + k).toNat + (-e).toNat) := by rw [hexp]
    _ = n * 10 ^ (e + k).toNat * f.one * 10 ^ (-e).toNat := by ring

end Decimal

/-! ## The shortest decimal -/

namespace Format

variable {f : Format} {tie : Tie} {units : Nat}

/-- Counted in the last place of the format, the decimal reads back as the count `units`. -/
def ReadsBack (f : Format) (units : Nat) (d : Decimal) : Prop :=
  ∃ places : Nat, d.exponent = places - (f.fractionBits : Int) ∧
    f.nearest (d.digits * Nat.pow 10 places) f.placesPerUnit = units

theorem readsBack_of_gridPoint? {step n : Nat} (h : f.gridPoint? tie units step = some n) :
    f.nearest (n * step) f.placesPerUnit = units := by
  unfold gridPoint? at h
  dsimp only at h
  generalize f.expansion units / step = below at h
  have heven : below + below % 2 = below ∨ below + below % 2 = below + 1 := by omega
  split at h
  · next hlow hhigh =>
    have hlow := beq_iff_eq.1 hlow
    have hhigh := beq_iff_eq.1 hhigh
    split at h <;> cases h
    · exact hlow
    · exact hhigh
    · exact hhigh
    · rcases heven with h | h <;> rw [h]
      · exact hlow
      · exact hhigh
  · next hlow _ =>
    cases h
    exact beq_iff_eq.1 hlow
  · next hhigh =>
    cases h
    exact beq_iff_eq.1 hhigh
  · cases h

theorem readsBack_shortestFrom (hfits : f.Fits units) (j : Nat) :
    f.ReadsBack units (f.shortestFrom tie units j) := by
  induction j with
  | zero =>
    refine ⟨0, by simp [shortestFrom], ?_⟩
    show f.nearest (f.expansion units * 1) f.placesPerUnit = units
    rw [Nat.mul_one]
    exact nearest_mul_of_gap_dvd (Nat.pow_pos (by decide)) hfits.1
  | succ j ih =>
    unfold shortestFrom
    split
    · next n hn => exact ⟨j + 1, rfl, readsBack_of_gridPoint? hn⟩
    · exact ih

end Format

namespace Decimal

variable {f : Format} {tie : Tie} {units : Nat}

theorem toBinary_of_readsBack {d : Decimal} (h : f.ReadsBack units d) (hfits : f.Fits units) (s : Bool) :
    d.toBinary s = Binary.finite s units hfits := by
  obtain ⟨places, hexponent, hnearest⟩ := h
  rw [toBinary_eq_round]
  refine Binary.round_of_nearest_eq ((f.nearest_congr (Nat.pow_pos (by decide)) (Nat.pow_pos (by decide)) ?_).trans
    hnearest) hfits
  -- two to a power is ten to it over five to it
  have hten : f.one * f.placesPerUnit = 10 ^ f.fractionBits := by
    show 2 ^ f.fractionBits * 5 ^ f.fractionBits = _
    rw [← Nat.mul_pow]
  have hexp : d.exponent.toNat + f.fractionBits = places + (-d.exponent).toNat := by omega
  simp only [Nat.pow_eq]
  calc d.digits * 10 ^ d.exponent.toNat * f.one * f.placesPerUnit
      = d.digits * 10 ^ (d.exponent.toNat + f.fractionBits) := by
        rw [Nat.mul_assoc _ f.one, hten, Nat.pow_add, Nat.mul_assoc]
    _ = d.digits * 10 ^ places * 10 ^ (-d.exponent).toNat := by rw [hexp, Nat.pow_add, Nat.mul_assoc]

/-- The shortest decimal of a representable count reads back as the count. -/
theorem toBinary_shortest (hfits : f.Fits units) (s : Bool) :
    (f.shortest tie units).toBinary s = Binary.finite s units hfits :=
  toBinary_of_readsBack (Format.readsBack_shortestFrom hfits _) hfits s

end Decimal

end GoalRegression
