/-
Scanning gives back what was written, whatever follows it. A numeral is read up to what cannot go on with it
(`Numeral.readNumber_chars`) and a string up to its closing quote (`readString_quoted`); a scalar at the front
of a text is the head of its item (`readHead_of_readScalar`).
-/
import GoalRegression.Json.Scan
import GoalRegression.Json.Text
import GoalRegression.Proofs.Decimal.Digits

namespace GoalRegression.Json

/-! ## Results -/

section Results

variable {ε α β : Type} {x : Except ε α} {a : α}

@[simp] theorem ok_bind (a : α) (f : α → Except ε β) : (Except.ok a >>= f) = f a := rfl

theorem exists_of_bind_eq_ok {f : α → Except ε β} {b : β} (h : (x >>= f) = .ok b) :
    ∃ a, x = .ok a ∧ f a = .ok b := by
  cases x with
  | error e => cases h
  | ok a => exact ⟨a, rfl, h⟩

theorem eq_ok_of_toOption (h : x.toOption = some a) : x = .ok a := by
  cases x with
  | error e => cases h
  | ok a => cases h; rfl

theorem exists_eq_error_of_toOption (h : x.toOption = none) : ∃ e, x = .error e := by
  cases x with
  | error e => exact ⟨e, rfl⟩
  | ok a => cases h

end Results

/-! ## The end of a number -/

/-- Whether a number could go on with the character. -/
def continuesNumber (c : Char) : Bool := c.isDigit || c == '.' || c == 'e' || c == 'E'

/-- No number goes on here. -/
def EndsNumber (rest : List Char) : Prop := ∀ c ∈ rest.head?, continuesNumber c = false

theorem endsNumber_nil : EndsNumber [] := fun _ h => nomatch h

theorem EndsNumber.digitFree {rest : List Char} (h : EndsNumber rest) : DigitFree rest := by
  intro c hc
  have := h c hc
  simp only [continuesNumber, Bool.or_eq_false_iff] at this
  exact this.1.1.1

theorem EndsNumber.readFraction {rest : List Char} (h : EndsNumber rest) :
    readFraction rest = .ok (none, rest) := by
  unfold Json.readFraction
  split
  · next chars => cases h '.' rfl
  · rfl

theorem EndsNumber.readExponent {rest : List Char} (h : EndsNumber rest) :
    readExponent rest = .ok (none, rest) := by
  cases rest with
  | nil => rfl
  | cons c rest =>
    have hc := h c rfl
    simp only [continuesNumber, Bool.or_eq_false_iff, beq_eq_false_iff_ne] at hc
    exact if_neg fun he => he.elim hc.1.2 hc.2

/-! ## Numerals -/

/-- How a number is spelled after its sign: digits without a zero in front of others, perhaps digits after
a point, perhaps an exponent. -/
structure Numeral where
  whole : List Char
  fraction : Option (List Char)
  exponent : Option Int
  whole_digits : AllDigits whole
  whole_ne_nil : whole ≠ []
  whole_lead : whole.head? = some '0' → whole = ['0']
  fraction_digits : ∀ digits ∈ fraction, AllDigits digits ∧ digits ≠ []

namespace Numeral

/-- The numeral of digits without a zero in front. -/
def ofLead {whole : List Char} (h : LeadDigits whole) (fraction : Option (List Char)) (exponent : Option Int)
    (hfraction : ∀ digits ∈ fraction, AllDigits digits ∧ digits ≠ []) : Numeral :=
  ⟨whole, fraction, exponent, h.all, h.ne_nil, fun hzero => absurd hzero h.head_ne_zero, hfraction⟩

/-- A zero and the digits after its point. -/
def ofFraction {digits : List Char} (h : AllDigits digits) (hne : digits ≠ []) : Numeral :=
  ⟨['0'], some digits, none, allDigits_replicate_zero 1, List.cons_ne_nil _ _, fun _ => rfl,
    fun _ hdigits => Option.mem_some.1 hdigits ▸ ⟨h, hne⟩⟩

def exponentChars : Option Int → List Char
  | none => []
  | some n => 'e' :: (if n < 0 then '-' else '+') :: Nat.toDigits 10 n.natAbs

def fractionChars : Option (List Char) → List Char
  | none => []
  | some digits => '.' :: digits

def chars (n : Numeral) : List Char := n.whole ++ fractionChars n.fraction ++ exponentChars n.exponent

variable (n : Numeral) {rest : List Char}

/-! ### Reading a numeral -/

theorem readWhole_whole (hrest : DigitFree rest) : readWhole (n.whole ++ rest) = .ok (n.whole, rest) := by
  unfold readWhole
  rw [span_digits n.whole_digits hrest]
  have hlead := n.whole_lead
  have hne := n.whole_ne_nil
  generalize n.whole = whole at hlead hne
  split
  · next h => cases h; exact absurd rfl hne
  · next h => cases h; cases hlead rfl
  · next h => cases h; rfl

theorem readFraction_chars (hdigits : DigitFree rest) (hpoint : readFraction rest = .ok (none, rest)) :
    readFraction (fractionChars n.fraction ++ rest) = .ok (n.fraction, rest) := by
  cases hfraction : n.fraction with
  | none => exact hpoint
  | some digits =>
    obtain ⟨hall, hne⟩ := n.fraction_digits digits hfraction
    rw [fractionChars, List.cons_append, readFraction, span_digits hall hdigits]
    cases digits with
    | nil => exact absurd rfl hne
    | cons c digits => rfl

theorem readExponentDigits_digits (negative : Bool) {digits : List Char} (hall : AllDigits digits)
    (hne : digits ≠ []) (hrest : DigitFree rest) :
    readExponentDigits negative (digits ++ rest) =
      .ok (some (if negative then -(Decimal.digitsValue digits : Int) else Decimal.digitsValue digits), rest) := by
  unfold readExponentDigits
  rw [span_digits hall hrest]
  cases digits with
  | nil => exact absurd rfl hne
  | cons c digits => rfl

theorem readExponent_chars (hrest : EndsNumber rest) (exponent : Option Int) :
    readExponent (exponentChars exponent ++ rest) = .ok (exponent, rest) := by
  cases exponent with
  | none => exact hrest.readExponent
  | some e =>
    have hread (negative : Bool) := readExponentDigits_digits negative (allDigits_toDigits e.natAbs)
      Nat.toDigits_ne_nil hrest.digitFree
    simp only [Decimal.digitsValue_toDigits] at hread
    by_cases he : e < 0
    · have hvalue : -(e.natAbs : Int) = e := by omega
      have hminus := hread true
      rw [if_pos rfl, hvalue] at hminus
      simpa [exponentChars, he, readExponent, Decimal.takeSign] using hminus
    · have hvalue : (e.natAbs : Int) = e := by omega
      have hplus := hread false
      rw [if_neg Bool.false_ne_true, hvalue] at hplus
      simpa [exponentChars, he, readExponent, Decimal.takeSign] using hplus

theorem digitFree_exponentChars (hrest : EndsNumber rest) (exponent : Option Int) :
    DigitFree (exponentChars exponent ++ rest) := by
  cases exponent with
  | none => exact hrest.digitFree
  | some e => rintro c ⟨⟩; rfl

theorem readFraction_exponentChars (hrest : EndsNumber rest) (exponent : Option Int) :
    readFraction (exponentChars exponent ++ rest) = .ok (none, exponentChars exponent ++ rest) := by
  cases exponent with
  | none => exact hrest.readFraction
  | some e => rfl

theorem digitFree_fractionChars (hrest : DigitFree rest) (fraction : Option (List Char)) :
    DigitFree (fractionChars fraction ++ rest) := by
  cases fraction with
  | none => exact hrest
  | some digits => rintro c ⟨⟩; rfl

/-- A numeral is read in full, and what follows it is left. -/
theorem readNumber_chars (negative : Bool) (hrest : EndsNumber rest) :
    readNumber negative (n.chars ++ rest) =
      (checkRange (numberOfParts negative n.whole n.fraction n.exponent)).map fun s => (s, rest) := by
  have hexponent := digitFree_exponentChars hrest n.exponent
  unfold readNumber chars
  rw [List.append_assoc, List.append_assoc, n.readWhole_whole (digitFree_fractionChars hexponent n.fraction)]
  simp only [ok_bind, n.readFraction_chars hexponent (readFraction_exponentChars hrest n.exponent),
    readExponent_chars hrest]
  rfl

end Numeral

/-! ## Strings -/

section Strings

variable {rest : List Char}

theorem hexDigit?_hexChar (n : Nat) : hexDigit? (hexChar n) = some (n % 16) := by
  have hall : ∀ k < 16, hexDigit? (Nat.digitChar k) = some k := by decide
  exact hall _ (Nat.mod_lt n (by decide))

theorem utf8Size_hexChar (n : Nat) : (hexChar n).utf8Size = 1 := by
  have hall : ∀ k < 16, (Nat.digitChar k).utf8Size = 1 := by decide
  exact hall _ (Nat.mod_lt n (by decide))

/-- The four hexadecimal digits of a control are read as the control. -/
theorem readCodeEscape_control {c : Char} (hc : c.toNat < 0x20) :
    readCodeEscape ('0' :: '0' :: hexChar (c.toNat / 16) :: hexChar c.toNat :: rest) = .ok (c, rest) := by
  have hunit : readUnit ('0' :: '0' :: hexChar (c.toNat / 16) :: hexChar c.toNat :: rest) =
      .ok (c.toNat, rest) := by
    have hvalue : c.toNat / 16 % 16 * 16 + c.toNat % 16 = c.toNat := by omega
    have hzero : hexDigit? '0' = some 0 := rfl
    have hsize : '0'.utf8Size = 1 := rfl
    simp [readUnit, hexDigit?_hexChar, utf8Size_hexChar, hzero, hsize, hvalue]
  unfold readCodeEscape
  rw [hunit, ok_bind]
  -- no control is a surrogate
  show (if 0xD800 ≤ c.toNat ∧ c.toNat ≤ 0xDBFF then _ else
    if 0xDC00 ≤ c.toNat ∧ c.toNat ≤ 0xDFFF then _ else _) = _
  rw [if_neg (by omega), if_neg (by omega), Char.ofNat_toNat]
  rfl

/-- What is read after a character, with the character in front. -/
def withFirst (c : Char) (read : Except ReadError (List Char × List Char)) :
    Except ReadError (List Char × List Char) := do
  let (text, chars) ← read
  return (c :: text, chars)

theorem readCharsWithin_escape {c : Char} {chars : List Char} (fuel : Nat)
    (h : readEscape chars = .ok (c, rest)) :
    readCharsWithin (fuel + 1) ('\\' :: chars) = withFirst c (readCharsWithin fuel rest) := by
  rw [readCharsWithin, h]
  rfl

theorem readCharsWithin_plain {c : Char} (fuel : Nat) (hquote : c ≠ '"') (hbackslash : c ≠ '\\')
    (hcontrol : ¬c.toNat < 0x20) :
    readCharsWithin (fuel + 1) (c :: rest) = withFirst c (readCharsWithin fuel rest) := by
  rw [readCharsWithin, if_neg hcontrol]
  · rfl
  · exact hquote
  · exact hbackslash

/-- A character is read back from how it stands in a string. -/
theorem readCharsWithin_quotedChar (fuel : Nat) (c : Char) :
    readCharsWithin (fuel + 1) (quotedChar c ++ rest) = withFirst c (readCharsWithin fuel rest) := by
  unfold quotedChar
  split
  case h_8 hquote hbackslash _ _ _ _ _ =>
    split
    · next hcontrol => exact readCharsWithin_escape fuel (readCodeEscape_control hcontrol)
    · next hcontrol => exact readCharsWithin_plain fuel hquote hbackslash hcontrol
  all_goals exact readCharsWithin_escape fuel rfl

/-- Each character takes one step and the closing quote another, however long its escape is. -/
theorem readCharsWithin_quoted (text : List Char) {fuel : Nat} (hfuel : text.length < fuel) :
    readCharsWithin fuel (text.flatMap quotedChar ++ '"' :: rest) = .ok (text, rest) := by
  induction text generalizing fuel with
  | nil =>
    obtain ⟨fuel, rfl⟩ := Nat.exists_eq_add_one_of_ne_zero (Nat.ne_of_gt hfuel)
    rfl
  | cons c text ih =>
    obtain ⟨fuel, rfl⟩ := Nat.exists_eq_add_one_of_ne_zero (Nat.ne_of_gt (Nat.zero_lt_of_lt hfuel))
    rw [List.flatMap_cons, List.append_assoc, readCharsWithin_quotedChar, ih (Nat.lt_of_succ_lt_succ hfuel)]
    rfl

theorem length_le_length_flatMap_quotedChar (text : List Char) :
    text.length ≤ (text.flatMap quotedChar).length := by
  induction text with
  | nil => exact Nat.le_refl _
  | cons c text ih =>
    have hc : 1 ≤ (quotedChar c).length := by
      unfold quotedChar
      split
      case h_8 => split <;> exact Nat.succ_le_succ (Nat.zero_le _)
      all_goals exact Nat.succ_le_succ (Nat.zero_le _)
    rw [List.flatMap_cons, List.length_append, List.length_cons]
    omega

/-- The text of a string after its opening quote is read back as the string. -/
theorem readString_quoted (s : String) (rest : List Char) :
    readString (s.toList.flatMap quotedChar ++ '"' :: rest) = .ok (s, rest) := by
  have hlength := length_le_length_flatMap_quotedChar s.toList
  unfold readString
  rw [readCharsWithin_quoted s.toList (by rw [List.length_append]; omega), ok_bind]
  exact congrArg (fun text => Except.ok (text, rest)) String.ofList_toList

end Strings

/-! ## Scalars and heads -/

section Scalars

variable {rest : List Char}

theorem readScalar_digit {c : Char} (hc : c.isDigit = true) (chars : List Char) :
    readScalar (c :: chars) = readNumber false (c :: chars) := by
  unfold readScalar
  split
  case h_1 heq => cases heq
  case h_7 heq =>
    cases heq
    exact if_pos hc
  all_goals
    next heq =>
      cases heq
      exact absurd hc (by decide)

namespace Numeral

variable (n : Numeral)

/-- The numeral after a minus, or alone. -/
def signed (negative : Bool) : List Char := if negative then '-' :: n.chars else n.chars

theorem readScalar_signed (negative : Bool) (hrest : EndsNumber rest) :
    readScalar (n.signed negative ++ rest) =
      (checkRange (numberOfParts negative n.whole n.fraction n.exponent)).map fun s => (s, rest) := by
  rw [← n.readNumber_chars negative hrest]
  cases negative with
  | true => rfl
  | false =>
    obtain ⟨c, whole, hwhole⟩ := List.exists_cons_of_ne_nil n.whole_ne_nil
    have hc : c.isDigit = true := n.whole_digits c (hwhole ▸ List.mem_cons_self)
    show readScalar (n.chars ++ rest) = _
    unfold chars
    rw [hwhole]
    exact readScalar_digit hc _

end Numeral

theorem readScalar_quoted (s : String) (rest : List Char) :
    readScalar ((quoted s).toList ++ rest) = .ok (.string s, rest) := by
  have hread := readString_quoted s rest
  unfold quoted
  rw [String.toList_ofList, List.cons_append, List.cons_append, List.append_assoc]
  show (readString (s.toList.flatMap quotedChar ++ '"' :: rest) >>= _) = _
  rw [hread]
  rfl

theorem readScalar_truth (b : Bool) (rest : List Char) :
    readScalar ((truth b).toList ++ rest) = .ok (.bool b, rest) := by
  cases b <;> rfl

/-- A scalar at the front of the text is the head of its item. -/
theorem readHead_of_readScalar {chars : List Char} {s : Scalar} (h : readScalar chars = .ok (s, rest)) :
    readHead chars = .ok (.scalar s, rest) := by
  cases chars with
  | nil => cases h
  | cons c chars =>
    have hblank : isBlank c = false := by
      by_contra hblank
      simp only [isBlank, Bool.not_eq_false, Bool.or_eq_true, beq_iff_eq] at hblank
      obtain ((rfl | rfl) | rfl) | rfl := hblank <;> cases h
    have hskip : skipBlanks (c :: chars) = c :: chars := List.dropWhile_cons_of_neg (by simp [hblank])
    unfold readHead
    rw [hskip]
    split
    · next heq => cases heq; cases h
    · next heq => cases heq; cases h
    · rw [h]; rfl

end Scalars

end GoalRegression.Json
