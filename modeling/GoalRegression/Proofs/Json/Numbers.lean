/-
Numbers of JSON text are read back. The layout of a decimal spells a numeral of the same value
(`spells_decimal`), and the shortest decimal reads back, so a finite number is read back from its text and
an integer from its digits, whatever follows them: `readScalar_render` and `readScalar_integer`. No finite
number looks like an integer (`hasMark_render`).
-/
import GoalRegression.Json.Library
import GoalRegression.Proofs.Decimal.Reading
import GoalRegression.Proofs.Json.Scan

namespace GoalRegression.Json

/-! ## Numerals of decimals -/

/-- There is a fraction or an exponent. -/
def Numeral.IsMarked (n : Numeral) : Prop := n.fraction ≠ none ∨ n.exponent ≠ none

/-- The characters are a numeral that is no integer, and it is read as the decimal. -/
def Spells (chars : List Char) (d : Decimal) : Prop :=
  ∃ n : Numeral, n.chars = chars ∧ n.IsMarked ∧
    ∀ negative, numberOfParts negative n.whole n.fraction n.exponent = .number (d.toBinary negative)

theorem spells_of_fraction (n : Numeral) {fraction : List Char} {d : Decimal} (hfraction : n.fraction = some fraction)
    (hexponent : n.exponent = none)
    (hvalue : ∀ negative, ((Decimal.ofParts n.whole fraction 0).toBinary negative : Binary64) = d.toBinary negative) :
    Spells (n.whole ++ '.' :: fraction) d := by
  refine ⟨n, ?_, Or.inl (hfraction ▸ Option.some_ne_none fraction), fun negative => ?_⟩
  · rw [Numeral.chars, hfraction, hexponent]
    exact List.append_nil _
  · rw [hfraction, hexponent]
    exact congrArg Scalar.number (hvalue negative)

section Layouts

variable {digits : List Char} (hlead : LeadDigits digits)

include hlead

/-- A whole number ends in a point and a zero. -/
theorem spells_whole (zeros : Nat) :
    Spells (digits ++ List.replicate zeros '0' ++ ['.', '0']) ⟨Decimal.digitsValue digits, zeros⟩ := by
  refine spells_of_fraction (.ofLead (hlead.append (allDigits_replicate_zero zeros)) (some ['0']) none ?_)
    rfl rfl fun negative => ?_
  · rintro _ ⟨⟩
    exact ⟨allDigits_replicate_zero 1, List.cons_ne_nil _ _⟩
  · have hvalue : Decimal.ofParts (digits ++ List.replicate zeros '0') ['0'] 0 =
        ⟨Decimal.digitsValue digits * Nat.pow 10 (zeros + 1), -1⟩ := by
      rw [← Decimal.digitsValue_append_zeros, List.replicate_succ', ← List.append_assoc]
      rfl
    have hexponent : (-1 : Int) + (zeros + 1 : Nat) = zeros := by omega
    show (Decimal.ofParts (digits ++ List.replicate zeros '0') ['0'] 0).toBinary negative = _
    rw [hvalue, Decimal.toBinary_shift, hexponent]

/-- Digits on both sides of the point. -/
theorem spells_inside {n : Nat} {last : Int} (hn : n ≠ 0) (hlast : (n : Int) = digits.length + last)
    (hneg : last < 0) :
    Spells (digits.take n ++ '.' :: digits.drop n) ⟨Decimal.digitsValue digits, last⟩ := by
  have hdrop : digits.drop n ≠ [] := by
    rw [Ne, List.drop_eq_nil_iff]
    omega
  refine spells_of_fraction (.ofLead (hlead.take hn) (some (digits.drop n)) none ?_) rfl rfl fun negative => ?_
  · rintro _ ⟨⟩
    exact ⟨hlead.all.drop n, hdrop⟩
  · have hvalue : Decimal.ofParts (digits.take n) (digits.drop n) 0 = ⟨Decimal.digitsValue digits, last⟩ := by
      unfold Decimal.ofParts
      rw [List.take_append_drop, List.length_drop]
      congr 1
      omega
    show (Decimal.ofParts (digits.take n) (digits.drop n) 0).toBinary negative = _
    rw [hvalue]

/-- Digits and zeros before them, all after the point. -/
theorem spells_below {zeros : Nat} {last : Int} (hlast : last = -(zeros + digits.length : Nat)) :
    Spells ('0' :: '.' :: List.replicate zeros '0' ++ digits) ⟨Decimal.digitsValue digits, last⟩ := by
  have hne : List.replicate zeros '0' ++ digits ≠ [] := List.append_ne_nil_of_right_ne_nil _ hlead.ne_nil
  refine spells_of_fraction (.ofFraction ((allDigits_replicate_zero zeros).append hlead.all) hne)
    rfl rfl fun negative => ?_
  have hvalue : Decimal.ofParts ['0'] (List.replicate zeros '0' ++ digits) 0 =
      ⟨Decimal.digitsValue digits, last⟩ := by
    unfold Decimal.ofParts
    rw [← List.append_assoc, List.length_append, List.length_replicate, Int.zero_sub, hlast]
    congr 1
    exact Decimal.digitsValue_zeros_append digits (zeros + 1)
  show (Decimal.ofParts ['0'] (List.replicate zeros '0' ++ digits) 0).toBinary negative = _
  rw [hvalue]

/-- Digits of which the last stands for a power of ten, with a point where it belongs. -/
theorem spells_plain (last : Int) :
    Spells (Layout.json.plain digits last) ⟨Decimal.digitsValue digits, last⟩ := by
  unfold Layout.plain
  dsimp only
  split
  · next hlast =>
    obtain ⟨zeros, rfl⟩ := Int.eq_ofNat_of_zero_le hlast
    exact spells_whole hlead zeros
  · split
    · exact spells_inside hlead (by omega) (by omega) (by omega)
    · exact spells_below hlead (by omega)

/-- One digit before the point, and an exponent, which is that of the first digit. -/
theorem spells_scientific {lead last : Int} (hlast : lead = last + digits.length - 1) :
    Spells (Layout.json.scientific digits lead) ⟨Decimal.digitsValue digits, last⟩ := by
  have hlength : 0 < digits.length := List.length_pos_iff.2 hlead.ne_nil
  have hvalue : Decimal.ofParts (digits.take 1) (digits.drop 1) lead = ⟨Decimal.digitsValue digits, last⟩ := by
    unfold Decimal.ofParts
    rw [List.take_append_drop, List.length_drop]
    congr 1
    omega
  have hsign : (if lead < 0 then ['-'] else if Layout.json.plusSign then ['+'] else []) =
      [if lead < 0 then '-' else '+'] := by
    split <;> rfl
  unfold Layout.scientific
  dsimp only
  rw [hsign, List.append_assoc _ (_ :: _)]
  -- a single digit has no point
  by_cases hdrop : digits.drop 1 = []
  · refine ⟨.ofLead (hlead.take Nat.one_ne_zero) none (some lead) (by rintro _ ⟨⟩), ?_,
      Or.inr (Option.some_ne_none lead), fun negative => ?_⟩
    · rw [hdrop, List.isEmpty_nil, if_pos rfl]
      rfl
    · rw [← hvalue, hdrop]
      rfl
  · refine ⟨.ofLead (hlead.take Nat.one_ne_zero) (some (digits.drop 1)) (some lead) ?_, ?_,
      Or.inr (Option.some_ne_none lead), fun negative => ?_⟩
    · rintro _ ⟨⟩
      exact ⟨hlead.all.drop 1, hdrop⟩
    · rw [if_neg fun h => hdrop (List.isEmpty_iff.1 h)]
      rfl
    · rw [← hvalue]
      rfl

end Layouts

/-- A decimal is laid out as a numeral of the same value. -/
theorem spells_decimal {d : Decimal} (h : d.digits ≠ 0) : Spells (Layout.json.decimal d) d := by
  have hlead := Decimal.leadDigits_significant h
  -- the significant digits and the power of their last one have the value of the decimal
  have hvalue (negative : Bool) : (⟨Decimal.digitsValue d.significant, d.lastExponent⟩ : Decimal).toBinary negative =
      (d.toBinary negative : Binary64) := by
    have hshift := Decimal.toBinary_shift (f := .double) negative (Decimal.digitsValue d.significant)
      d.trailingZeros d.exponent
    rw [d.digitsValue_significant] at hshift
    exact hshift.symm
  have hspells : Spells (Layout.json.decimal d) ⟨Decimal.digitsValue d.significant, d.lastExponent⟩ := by
    unfold Layout.decimal
    split
    · exact spells_plain hlead d.lastExponent
    · exact spells_scientific hlead rfl
  obtain ⟨n, hchars, hmarked, hnumber⟩ := hspells
  exact ⟨n, hchars, hmarked, fun negative => by rw [hnumber, hvalue]⟩

theorem spells_zero : Spells (Layout.json.plain ['0'] 0) ⟨0, 0⟩ := by
  refine spells_of_fraction (.ofFraction (allDigits_replicate_zero 1) (List.cons_ne_nil _ _))
    rfl rfl fun negative => ?_
  show (Decimal.ofParts ['0'] ['0'] 0).toBinary negative = _
  rw [Decimal.toBinary_zero rfl, Decimal.toBinary_zero rfl]

/-! ## Numbers of text -/

theorem checkRange_number {x : Binary64} (hx : x.isFinite = true) : checkRange (.number x) = .ok (.number x) :=
  if_pos hx

/-- The magnitude of a representable count is a numeral, which is read as the count. -/
theorem exists_spells_magnitude (units : Nat) (hfits : Format.double.Fits units) :
    ∃ d : Decimal, Spells (if units = 0 then Layout.json.plain ['0'] 0
        else Layout.json.decimal (Format.double.shortest Layout.json.tie units)) d ∧
      ∀ negative, d.toBinary negative = Binary.finite negative units hfits := by
  by_cases hunits : units = 0
  · subst hunits
    exact ⟨⟨0, 0⟩, spells_zero, fun negative => Decimal.toBinary_zero rfl negative⟩
  · have hreads (negative : Bool) : (Format.double.shortest Layout.json.tie units).toBinary negative =
        Binary.finite negative units hfits := Decimal.toBinary_shortest hfits negative
    refine ⟨_, if_neg hunits ▸ spells_decimal fun hzero => hunits ?_, hreads⟩
    -- a decimal of zeros would read as zero
    have hfinite := (Decimal.toBinary_zero hzero false).symm.trans (hreads false)
    cases hfinite
    rfl

/-- A finite number is written as a numeral that is no integer, and it is read as the number. -/
theorem exists_numeral_render {x : Binary64} (hx : x.isFinite = true) :
    ∃ (n : Numeral) (negative : Bool), n.IsMarked ∧ (Layout.json.render x).toList = n.signed negative ∧
      numberOfParts negative n.whole n.fraction n.exponent = .number x := by
  cases x with
  | nan => cases hx
  | infinity negative => cases hx
  | finite negative units hfits =>
    obtain ⟨d, ⟨n, hchars, hmarked, hnumber⟩, hd⟩ := exists_spells_magnitude units hfits
    refine ⟨n, negative, hmarked, ?_, by rw [hnumber, hd]⟩
    unfold Numeral.signed
    rw [hchars]
    exact String.toList_ofList

/-- A finite number is read back from its text. -/
theorem readScalar_render {x : Binary64} (hx : x.isFinite = true) {rest : List Char} (hrest : EndsNumber rest) :
    readScalar ((Layout.json.render x).toList ++ rest) = .ok (.number x, rest) := by
  obtain ⟨n, negative, _, htext, hnumber⟩ := exists_numeral_render hx
  rw [htext, n.readScalar_signed negative hrest, hnumber, checkRange_number hx]
  rfl

theorem Numeral.IsMarked.any_isMark {n : Numeral} (h : n.IsMarked) (negative : Bool) :
    (n.signed negative).any isMark = true := by
  have hchars : n.chars.any isMark = true := by
    unfold Numeral.chars
    rw [List.any_append, List.any_append, Bool.or_eq_true, Bool.or_eq_true]
    obtain hfraction | hexponent := h
    · obtain ⟨digits, hfraction⟩ := Option.ne_none_iff_exists'.1 hfraction
      exact Or.inl (Or.inr (by rw [hfraction]; rfl))
    · obtain ⟨e, hexponent⟩ := Option.ne_none_iff_exists'.1 hexponent
      exact Or.inr (by rw [hexponent]; rfl)
  cases negative with
  | true => exact hchars
  | false => exact hchars

/-- A finite number is written with a fraction or an exponent. -/
theorem hasMark_render {x : Binary64} (hx : x.isFinite = true) : hasMark (Layout.json.render x) = true := by
  obtain ⟨n, negative, hmarked, htext, _⟩ := exists_numeral_render hx
  unfold hasMark
  rw [htext]
  exact hmarked.any_isMark negative

/-- The digits of a whole number. -/
def Numeral.ofNat (k : Nat) : Numeral where
  whole := Nat.toDigits 10 k
  fraction := none
  exponent := none
  whole_digits := allDigits_toDigits k
  whole_ne_nil := Nat.toDigits_ne_nil
  whole_lead := fun hzero => by
    by_cases hk : k = 0
    · rw [hk, Nat.toDigits_zero]
    · exact absurd hzero (Decimal.leadDigits_toDigits hk).head_ne_zero
  fraction_digits := fun _ h => nomatch h

theorem toList_toString_int (n : Int) :
    (toString n).toList = (Numeral.ofNat n.natAbs).signed (decide (n < 0)) := by
  have hchars : (Numeral.ofNat n.natAbs).chars = Nat.toDigits 10 n.natAbs := by
    show Nat.toDigits 10 n.natAbs ++ [] ++ [] = _
    rw [List.append_nil, List.append_nil]
  unfold Numeral.signed
  rw [hchars, Int.toString_eq_repr, Int.repr_eq_if]
  by_cases hn : n < 0
  · have hnat : (-n).toNat = n.natAbs := by omega
    rw [if_neg (by omega), if_pos (decide_eq_true hn), String.toList_append, Nat.toList_repr, hnat]
    rfl
  · have hnat : n.toNat = n.natAbs := by omega
    rw [if_pos (by omega), if_neg (by simpa using hn), Nat.toList_repr, hnat]

/-- The signed range of 64 bits is within what is read as an integer. -/
theorem wholeNumber_natAbs {n : Int} (hlow : -2 ^ 63 ≤ n) (hhigh : n < 2 ^ 63) :
    wholeNumber (decide (n < 0)) n.natAbs = .integer n := by
  unfold wholeNumber
  by_cases hn : n < 0
  · have hvalue : -(n.natAbs : Int) = n := by omega
    rw [if_pos (decide_eq_true hn), if_pos (by omega), hvalue]
  · have hvalue : (n.natAbs : Int) = n := by omega
    rw [if_neg (by simpa using hn), if_pos (by omega), hvalue]

/-- An integer of 64 bits is read back from its text. -/
theorem readScalar_integer (i : Int64) {rest : List Char} (hrest : EndsNumber rest) :
    readScalar ((toString i.toInt).toList ++ rest) = .ok (.integer i.toInt, rest) := by
  have hnumber : numberOfParts (decide (i.toInt < 0)) (Numeral.ofNat i.toInt.natAbs).whole none none =
      .integer i.toInt := by
    show wholeNumber _ (Decimal.digitsValue (Nat.toDigits 10 i.toInt.natAbs)) = _
    rw [Decimal.digitsValue_toDigits, wholeNumber_natAbs i.le_toInt i.toInt_lt]
  rw [toList_toString_int, Numeral.readScalar_signed _ _ hrest]
  exact congrArg (fun s => (checkRange s).map fun s => (s, rest)) hnumber

end GoalRegression.Json
