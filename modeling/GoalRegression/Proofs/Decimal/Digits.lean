/-
Digit characters: the number they spell, where they end in a text, and the digits of a decimal, which are
its significant ones and zeros.
-/
import GoalRegression.Decimal.Basic
import GoalRegression.Decimal.Read
import Mathlib.Data.List.DropRight
import Mathlib.Data.List.TakeDrop

namespace GoalRegression

/-! ## Runs of digits -/

/-- Whether all of the characters are digits. -/
def AllDigits (chars : List Char) : Prop := ∀ c ∈ chars, c.isDigit

theorem AllDigits.append {a b : List Char} (ha : AllDigits a) (hb : AllDigits b) : AllDigits (a ++ b) :=
  fun c hc => (List.mem_append.1 hc).elim (ha c) (hb c)

theorem AllDigits.take {digits : List Char} (h : AllDigits digits) (n : Nat) : AllDigits (digits.take n) :=
  fun c hc => h c (List.mem_of_mem_take hc)

theorem AllDigits.drop {digits : List Char} (h : AllDigits digits) (n : Nat) : AllDigits (digits.drop n) :=
  fun c hc => h c (List.mem_of_mem_drop hc)

theorem allDigits_replicate_zero (n : Nat) : AllDigits (List.replicate n '0') := by
  intro c hc
  obtain rfl := List.eq_of_mem_replicate hc
  rfl

theorem allDigits_toDigits (n : Nat) : AllDigits (Nat.toDigits 10 n) :=
  fun _ => Nat.isDigit_of_mem_toDigits (by decide) (by decide)

/-- No digit stands at the front. -/
def DigitFree (rest : List Char) : Prop := ∀ c ∈ rest.head?, c.isDigit = false

theorem span_digits {digits rest : List Char} (hdigits : AllDigits digits) (hrest : DigitFree rest) :
    (digits ++ rest).span Char.isDigit = (digits, rest) := by
  rw [List.span_eq_takeWhile_dropWhile, List.takeWhile_append_of_pos hdigits,
    List.dropWhile_append_of_pos hdigits]
  cases rest with
  | nil => simp
  | cons c rest =>
    have hc : c.isDigit = false := hrest c rfl
    simp [hc]

/-- At least one digit, and no zero in front. -/
structure LeadDigits (digits : List Char) : Prop where
  all : AllDigits digits
  ne_nil : digits ≠ []
  head_ne_zero : digits.head? ≠ some '0'

theorem LeadDigits.append {digits more : List Char} (h : LeadDigits digits) (hmore : AllDigits more) :
    LeadDigits (digits ++ more) where
  all := h.all.append hmore
  ne_nil := List.append_ne_nil_of_left_ne_nil h.ne_nil more
  head_ne_zero := by
    rw [List.head?_append_of_ne_nil _ h.ne_nil]
    exact h.head_ne_zero

theorem LeadDigits.take {digits : List Char} {n : Nat} (h : LeadDigits digits) (hn : n ≠ 0) :
    LeadDigits (digits.take n) where
  all := h.all.take n
  ne_nil := fun hnil => (List.take_eq_nil_iff.1 hnil).elim hn h.ne_nil
  head_ne_zero := by
    rw [List.head?_take, if_neg hn]
    exact h.head_ne_zero

namespace Decimal

/-! ## The number of a run -/

theorem digitsValue_eq_ofDigitChars (digits : List Char) :
    digitsValue digits = Nat.ofDigitChars 10 digits 0 := rfl

@[simp] theorem digitsValue_toDigits (n : Nat) : digitsValue (Nat.toDigits 10 n) = n :=
  Nat.ofDigitChars_ten_toDigits

theorem digitsValue_append_zeros (digits : List Char) (n : Nat) :
    digitsValue (digits ++ List.replicate n '0') = digitsValue digits * Nat.pow 10 n := by
  rw [digitsValue_eq_ofDigitChars, Nat.ofDigitChars_append, Nat.ofDigitChars_replicate_zero,
    digitsValue_eq_ofDigitChars, Nat.mul_comm]
  rfl

theorem digitsValue_zeros_append (digits : List Char) (n : Nat) :
    digitsValue (List.replicate n '0' ++ digits) = digitsValue digits := by
  rw [digitsValue_eq_ofDigitChars, Nat.ofDigitChars_append, Nat.ofDigitChars_replicate_zero,
    Nat.mul_zero, digitsValue_eq_ofDigitChars]

theorem leadDigits_toDigits {n : Nat} (hn : n ≠ 0) : LeadDigits (Nat.toDigits 10 n) where
  all := allDigits_toDigits n
  ne_nil := Nat.toDigits_ne_nil
  head_ne_zero := by
    -- the first digit is that of the number without its last one
    induction n using Nat.strongRecOn with
    | _ n ih =>
      by_cases hlt : n < 10
      · have hdigit : ∀ n < 10, n ≠ 0 → Nat.digitChar n ≠ '0' := by decide
        rw [Nat.toDigits_of_lt_base hlt]
        simpa using hdigit n hlt hn
      · rw [Nat.toDigits_of_base_le (by decide) (Nat.le_of_not_lt hlt),
          List.head?_append_of_ne_nil _ Nat.toDigits_ne_nil]
        exact ih (n / 10) (by omega) (by omega)

/-! ## Significant digits -/

variable (d : Decimal)

theorem significant_append_zeros :
    d.significant ++ List.replicate d.trailingZeros '0' = Nat.toDigits 10 d.digits := by
  unfold significant trailingZeros
  generalize (Nat.toDigits 10 d.digits) = digits
  have hzeros : digits.reverse.takeWhile (· == '0') =
      List.replicate (digits.reverse.takeWhile (· == '0')).length '0' :=
    List.eq_replicate_of_mem fun c hc => by simpa using List.mem_takeWhile_imp hc
  rw [← List.reverse_replicate, ← hzeros, ← List.reverse_append, List.takeWhile_append_dropWhile,
    List.reverse_reverse]

theorem digitsValue_significant : digitsValue d.significant * Nat.pow 10 d.trailingZeros = d.digits := by
  rw [← digitsValue_append_zeros, significant_append_zeros, digitsValue_toDigits]

theorem allDigits_significant : AllDigits d.significant := by
  intro c hc
  refine allDigits_toDigits d.digits c ?_
  rw [← significant_append_zeros]
  exact List.mem_append_left _ hc

variable {d}

theorem leadDigits_significant (h : d.digits ≠ 0) : LeadDigits d.significant := by
  have hne : d.significant ≠ [] := by
    intro hnil
    have hvalue := d.digitsValue_significant
    rw [hnil, show digitsValue [] = 0 from rfl, Nat.zero_mul] at hvalue
    exact h hvalue.symm
  have hhead := (leadDigits_toDigits h).head_ne_zero
  rw [← significant_append_zeros, List.head?_append_of_ne_nil _ hne] at hhead
  exact ⟨d.allDigits_significant, hne, hhead⟩

end Decimal

end GoalRegression
