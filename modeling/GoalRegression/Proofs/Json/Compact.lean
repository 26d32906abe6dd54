/-
The compact library does what is relied on. A scalar is read back from its text whatever follows it (`Reads`), so
members are read one after the other (`toOption_readMembersWithin`). What is read as an integer has passed over no
fraction and no exponent (`any_isMark_of_read`).
-/
import GoalRegression.Json.Compact
import GoalRegression.Proofs.Json.Numbers

namespace GoalRegression.Json

/-! ## Texts of scalars -/

/-- Whatever follows the text, it is read as the scalar. -/
def Reads (text : String) (s : Scalar) : Prop :=
  ∀ {rest : List Char}, EndsNumber rest → readScalar (text.toList ++ rest) = .ok (s, rest)

theorem exists_reads_of_writes {text : String} (h : compact.Writes text) : ∃ s, Reads text s := by
  cases h with
  | truth b => exact ⟨.bool b, fun _ => readScalar_truth b _⟩
  | integer i => exact ⟨.integer i.toInt, readScalar_integer i⟩
  | number x =>
    show ∃ s, Reads (Compact.number x) s
    unfold Compact.number
    by_cases hx : x.isFinite = true
    · exact ⟨.number x, if_pos hx ▸ readScalar_render hx⟩
    · exact ⟨.null, fun _ => if_neg hx ▸ rfl⟩
  | string s => exact ⟨.string s, fun _ => readScalar_quoted s _⟩

namespace Reads

variable {text : String} {s : Scalar}

theorem read (h : Reads text s) {rest : List Char} (hrest : EndsNumber rest) (depth : Nat) :
    Document.read depth (text.toList ++ rest) = .ok (.scalar s, rest) := by
  unfold Document.read stepsFor
  rw [Document.readWithin, readHead_of_readScalar (h hrest)]
  rfl

theorem isText (h : Reads text s) : compact.IsText (.scalar s) text := by
  intro α accept
  have hread := h.read endsNumber_nil Document.depthLimit
  rw [List.append_nil] at hread
  show (Compact.read accept text).toOption = accept (.scalar s)
  unfold Compact.read
  rw [hread, ok_bind]
  dsimp only
  cases accept (.scalar s) <;> rfl

/-- The text is of no other item. -/
theorem eq_of_isText (h : Reads text s) {content : Document} (hcontent : compact.IsText content text) :
    content = .scalar s :=
  Option.some.inj ((hcontent some).symm.trans (h.isText some))

end Reads

theorem isText_truth (b : Bool) : compact.IsText (.scalar (.bool b)) (truth b) :=
  Reads.isText fun _ => readScalar_truth b _

theorem isText_quoted (s : String) : compact.IsText (.scalar (.string s)) (quoted s) :=
  Reads.isText fun _ => readScalar_quoted s _

theorem isText_null : compact.IsText (.scalar .null) "null" := Reads.isText fun _ => rfl

/-! ## Texts of integers -/

theorem any_isMark_digits {digits : List Char} (h : AllDigits digits) : digits.any isMark = false := by
  rw [List.any_eq_false]
  intro c hc hmark
  have hdigit := h c hc
  simp only [isMark, Bool.or_eq_true, beq_iff_eq] at hmark
  obtain (rfl | rfl) | rfl := hmark <;> exact absurd hdigit (by decide)

theorem any_isMark_skipBlanks (chars : List Char) : (skipBlanks chars).any isMark = chars.any isMark := by
  unfold skipBlanks
  induction chars with
  | nil => rfl
  | cons c chars ih =>
    by_cases hblank : isBlank c = true
    · have hmark : isMark c = false := by
        simp only [isBlank, Bool.or_eq_true, beq_iff_eq] at hblank
        obtain ((rfl | rfl) | rfl) | rfl := hblank <;> rfl
      rw [List.dropWhile_cons_of_pos hblank, ih, List.any_cons, hmark, Bool.false_or]
    · rw [List.dropWhile_cons_of_neg hblank]

theorem any_isMark_of_span {chars digits rest : List Char} (h : chars.span Char.isDigit = (digits, rest)) :
    chars.any isMark = rest.any isMark := by
  rw [List.span_eq_takeWhile_dropWhile, Prod.mk.injEq] at h
  obtain ⟨rfl, rfl⟩ := h
  have hdigits : AllDigits (chars.takeWhile Char.isDigit) := fun c hc => List.mem_takeWhile_imp hc
  conv_lhs => rw [← List.takeWhile_append_dropWhile (p := Char.isDigit) (l := chars)]
  rw [List.any_append, any_isMark_digits hdigits, Bool.false_or]

theorem any_isMark_of_readWhole {chars whole rest : List Char} (h : readWhole chars = .ok (whole, rest)) :
    chars.any isMark = rest.any isMark := by
  unfold readWhole at h
  split at h
  · cases h
  · cases h
  · next hspan => cases h; exact any_isMark_of_span hspan

theorem eq_of_readFraction {chars rest : List Char} (h : readFraction chars = .ok (none, rest)) : chars = rest := by
  unfold readFraction at h
  split at h
  · split at h <;> cases h
  · cases h; rfl

theorem eq_of_readExponent {chars rest : List Char} (h : readExponent chars = .ok (none, rest)) : chars = rest := by
  unfold readExponent at h
  split at h
  · split at h
    · dsimp only at h
      unfold readExponentDigits at h
      split at h <;> cases h
    · cases h; rfl
  · cases h; rfl

theorem eq_of_checkRange {s s' : Scalar} (h : checkRange s = .ok s') : s = s' := by
  unfold checkRange at h
  split at h
  · split at h
    · cases h; rfl
    · cases h
  · cases h; rfl

/-- A number with a fraction or an exponent is no integer. -/
theorem parts_of_integer {negative : Bool} {whole : List Char} {fraction : Option (List Char)}
    {exponent : Option Int} {n : Int} (h : numberOfParts negative whole fraction exponent = .integer n) :
    fraction = none ∧ exponent = none := by
  unfold numberOfParts at h
  split at h
  · exact ⟨rfl, rfl⟩
  · cases h

theorem any_isMark_of_readNumber {negative : Bool} {chars rest : List Char} {n : Int}
    (h : readNumber negative chars = .ok (.integer n, rest)) : chars.any isMark = rest.any isMark := by
  obtain ⟨⟨whole, _⟩, hwhole, h⟩ := exists_of_bind_eq_ok h
  obtain ⟨⟨fraction, _⟩, hfraction, h⟩ := exists_of_bind_eq_ok h
  obtain ⟨⟨exponent, _⟩, hexponent, h⟩ := exists_of_bind_eq_ok h
  obtain ⟨s, hrange, h⟩ := exists_of_bind_eq_ok h
  cases h
  obtain ⟨rfl, rfl⟩ := parts_of_integer (eq_of_checkRange hrange)
  rw [any_isMark_of_readWhole hwhole, eq_of_readFraction hfraction, eq_of_readExponent hexponent]

theorem any_isMark_of_readScalar {chars rest : List Char} {n : Int}
    (h : readScalar chars = .ok (.integer n, rest)) : chars.any isMark = rest.any isMark := by
  unfold readScalar at h
  split at h
  case h_1 => cases h
  case h_5 =>
    have hrest := any_isMark_of_readNumber h
    exact hrest
  case h_7 =>
    split at h
    · exact any_isMark_of_readNumber h
    · cases h
  -- a literal or a string
  all_goals
    obtain ⟨_, _, h⟩ := exists_of_bind_eq_ok h
    cases h

theorem readHead_of_read {depth : Nat} {chars rest : List Char} {s : Scalar}
    (h : Document.read depth chars = .ok (.scalar s, rest)) : readHead chars = .ok (.scalar s, rest) := by
  unfold Document.read stepsFor at h
  rw [Document.readWithin] at h
  obtain ⟨⟨item, chars'⟩, hhead, h⟩ := exists_of_bind_eq_ok h
  cases item with
  | scalar s' => cases h; exact hhead
  | _ =>
    -- of a composite comes a composite document, if any
    dsimp only at h
    split at h
    · cases h
    · obtain ⟨_, _, h⟩ := exists_of_bind_eq_ok h
      cases h

theorem readScalar_of_readHead {chars rest : List Char} {s : Scalar} (h : readHead chars = .ok (.scalar s, rest)) :
    readScalar (skipBlanks chars) = .ok (s, rest) := by
  unfold readHead at h
  split at h
  · cases h
  · cases h
  · obtain ⟨_, hscalar, h⟩ := exists_of_bind_eq_ok h
    cases h
    exact hscalar

/-- Up to the end of an integer there is no fraction and no exponent. -/
theorem any_isMark_of_read {depth : Nat} {chars rest : List Char} {n : Int}
    (h : Document.read depth chars = .ok (.scalar (.integer n), rest)) : chars.any isMark = rest.any isMark := by
  rw [← any_isMark_skipBlanks]
  exact any_isMark_of_readScalar (readScalar_of_readHead (readHead_of_read h))

theorem any_isMark_of_expectEnd {chars : List Char} (h : expectEnd chars = .ok ()) : chars.any isMark = false := by
  unfold expectEnd at h
  split at h
  · next hempty => rw [← any_isMark_skipBlanks, List.isEmpty_iff.1 hempty]; rfl
  · cases h

/-- The item of a text is what is read from it, up to its end. -/
theorem exists_read_of_isText {content : Document} {text : String} (h : compact.IsText content text) :
    ∃ rest, Document.read Document.depthLimit text.toList = .ok (content, rest) ∧ expectEnd rest = .ok () := by
  have hread : Compact.read some text = .ok content := eq_ok_of_toOption (h some)
  obtain ⟨⟨document, rest⟩, hdocument, hread⟩ := exists_of_bind_eq_ok hread
  obtain ⟨_, haccepted, hread⟩ := exists_of_bind_eq_ok hread
  obtain ⟨_, hend, hread⟩ := exists_of_bind_eq_ok hread
  cases haccepted
  cases hread
  exact ⟨rest, hdocument, hend⟩

/-- The text of an integer has no fraction and no exponent. -/
theorem hasMark_eq_false_of_isText {text : String} {n : Int} (h : compact.IsText (.scalar (.integer n)) text) :
    hasMark text = false := by
  obtain ⟨rest, hread, hend⟩ := exists_read_of_isText h
  unfold hasMark
  rw [any_isMark_of_read hread, any_isMark_of_expectEnd hend]

/-! ## Members -/

/-- What stands before a member, `first` if it is the first. -/
def separator (first : Bool) : List Char := if first then [] else [',']

/-- A member, from the texts of its name and of its item. -/
def memberChars (m : String × String) : List Char := (m.1 ++ ":" ++ m.2).toList

/-- Members with what stands before each of them. -/
def membersChars (first : Bool) : List (String × String) → List Char
  | [] => []
  | m :: members => separator first ++ memberChars m ++ membersChars false members

theorem intercalate_memberChars (members : List (String × String)) :
    [','].intercalate (members.map memberChars) = membersChars true members := by
  induction members with
  | nil => rfl
  | cons m members ih =>
    cases members with
    | nil =>
      simp only [List.map_cons, List.map_nil, List.intercalate_singleton, membersChars, separator, if_true,
        List.nil_append, List.append_nil]
    | cons m' members =>
      rw [List.map_cons, List.map_cons, List.intercalate_cons_cons, ← List.map_cons, ih]
      simp only [membersChars, separator, if_true, Bool.false_eq_true, if_false, List.nil_append,
        List.append_assoc]

theorem toList_map (members : List (String × String)) :
    (Compact.map members).toList = '\x7b' :: (membersChars true members ++ ['\x7d']) := by
  rw [← intercalate_memberChars]
  unfold Compact.map
  rw [String.toList_append, String.toList_append, String.toList_intercalate, List.map_map]
  rfl

/-- Before a further member or the closing brace no number goes on. -/
theorem endsNumber_membersChars (members : List (String × String)) (rest : List Char) :
    EndsNumber (membersChars false members ++ '\x7d' :: rest) := by
  cases members with
  | nil => rintro c ⟨⟩; rfl
  | cons m members => rintro c ⟨⟩; rfl

theorem length_le_length_membersChars (first : Bool) (members : List (String × String)) :
    members.length ≤ (membersChars first members).length := by
  induction members generalizing first with
  | nil => exact Nat.le_refl _
  | cons m members ih =>
    have hmember : 1 ≤ (memberChars m).length := by
      unfold memberChars
      rw [String.toList_append, String.toList_append, List.length_append, List.length_append]
      show 1 ≤ m.1.toList.length + 1 + m.2.toList.length
      omega
    have hrest := ih false
    rw [membersChars, List.length_append, List.length_append, List.length_cons]
    omega

theorem memberChars_append (name text : String) (rest : List Char) :
    memberChars (quoted name, text) ++ rest =
      '"' :: (name.toList.flatMap quotedChar ++ '"' :: ':' :: (text.toList ++ rest)) := by
  unfold memberChars quoted
  rw [String.toList_append, String.toList_append, String.toList_ofList]
  simp only [List.cons_append, List.append_assoc, List.nil_append]
  rfl

theorem moreMembers_separator (first : Bool) (chars : List Char) :
    moreMembers first (separator first ++ '"' :: chars) = .ok (true, chars) := by
  cases first <;> rfl

section Members

variable {α : Type} (accept : Document → Option α)

/-- Reading a member adds what is accepted of its item. -/
theorem readMembersWithin_member (fuel : Nat) (first : Bool) (found : SortedMap String α) (name : String)
    {text : String} {s : Scalar} (htext : Reads text s) {rest : List Char} (hrest : EndsNumber rest) :
    Compact.readMembersWithin accept (fuel + 1) first found
        (separator first ++ memberChars (quoted name, text) ++ rest) =
      (Compact.accepted true (accept (.scalar s)) >>= fun a =>
        Compact.readMembersWithin accept fuel false (found.insert name a) rest) := by
  have hmark : expectMark ':' (':' :: (text.toList ++ rest)) = .ok (text.toList ++ rest) := rfl
  rw [List.append_assoc, memberChars_append, Compact.readMembersWithin, moreMembers_separator]
  simp only [ok_bind, if_true, readString_quoted, hmark, htext.read hrest]

/-- The name and the item of a member as they are written. -/
def memberTexts (m : compact.Member) : String × String := (quoted m.name, m.text)

/-- Reading members adds what is accepted of their items in turn, if all are accepted. -/
theorem toOption_readMembersWithin (members : List compact.Member) (hmembers : ∀ m ∈ members, m.Holds) {fuel : Nat}
    (hfuel : members.length < fuel) (first : Bool) (found : SortedMap String α) (rest : List Char) :
    (Compact.readMembersWithin accept fuel first found
        (membersChars first (members.map memberTexts) ++ '\x7d' :: rest)).toOption =
      (members.mapM fun m => (accept m.content).map (m.name, ·)).map fun entries =>
        (entries.foldl (fun found e => found.insert e.1 e.2) found, rest) := by
  -- on the members; what has been read before them is free
  induction members generalizing fuel first found with
  | nil =>
    obtain ⟨fuel, rfl⟩ := Nat.exists_eq_add_one_of_ne_zero (Nat.ne_of_gt hfuel)
    rfl
  | cons m members ih =>
    obtain ⟨fuel, rfl⟩ := Nat.exists_eq_add_one_of_ne_zero (Nat.ne_of_gt (Nat.zero_lt_of_lt hfuel))
    have hm := hmembers m List.mem_cons_self
    obtain ⟨s, hs⟩ := exists_reads_of_writes hm.writes
    have hcontent : m.content = .scalar s := hs.eq_of_isText hm.item
    have hrest := ih (fun m' hm' => hmembers m' (List.mem_cons_of_mem _ hm')) (Nat.lt_of_succ_lt_succ hfuel)
    rw [List.map_cons, membersChars, List.append_assoc, memberTexts, readMembersWithin_member accept fuel first found
      m.name hs (endsNumber_membersChars _ rest), ← hcontent, List.mapM_cons]
    cases accept m.content with
    | none => rfl
    | some a =>
      rw [Compact.accepted, ok_bind, hrest]
      cases members.mapM fun m => (accept m.content).map (m.name, ·) <;> rfl

theorem toOption_readMap (members : List compact.Member) (hmembers : ∀ m ∈ members, m.Holds) :
    (Compact.readMap accept (Compact.map (members.map memberTexts))).toOption =
      (members.mapM fun m => (accept m.content).map (m.name, ·)).map SortedMap.ofList := by
  have hhead (chars : List Char) : readHead ('\x7b' :: chars) = .ok (.map, chars) := rfl
  have hlength := length_le_length_membersChars true (members.map memberTexts)
  have hfuel : members.length < (membersChars true (members.map memberTexts) ++ ['\x7d']).length + 1 := by
    rw [List.length_map] at hlength
    rw [List.length_append]
    omega
  have hread := toOption_readMembersWithin accept members hmembers hfuel true .empty []
  unfold Compact.readMap
  rw [toList_map, hhead, ok_bind]
  dsimp only
  generalize Compact.readMembersWithin accept _ true .empty _ = result at hread
  cases hentries : members.mapM fun m => (accept m.content).map (m.name, ·) with
  | none =>
    rw [hentries] at hread
    obtain ⟨e, rfl⟩ := exists_eq_error_of_toOption hread
    rfl
  | some entries =>
    rw [hentries] at hread
    rw [eq_ok_of_toOption hread]
    rfl

end Members

/-! ## The laws -/

theorem compact_readsDigitsBack : compact.ReadsDigitsBack where
  integer i := by
    have hrange : Int64.minValue.toInt ≤ i.toInt ∧ i.toInt ≤ Int64.maxValue.toInt :=
      ⟨i.minValue_le_toInt, i.toInt_le⟩
    refine ⟨.scalar (.integer i.toInt), Reads.isText (readScalar_integer i), ?_⟩
    show (if _ then some (Int64.ofInt i.toInt) else none) = some i
    rw [if_pos hrange, Int64.ofInt_toInt]
  number x hx := by
    have htext : Reads (Compact.number x) (.number x) := by
      unfold Compact.number
      exact if_pos hx ▸ readScalar_render hx
    exact ⟨.scalar (.number x), htext.isText, rfl⟩

theorem compact_marksNumbers : compact.MarksNumbers where
  mark x hx := by
    show hasMark (Compact.number x) = true
    unfold Compact.number
    rw [if_pos hx]
    exact hasMark_render hx
  no_integer content text htext hmark := by
    cases content with
    | scalar s =>
      cases s with
      | integer n => exact absurd (hasMark_eq_false_of_isText htext) (Bool.not_eq_false _ ▸ hmark)
      | _ => rfl
    | _ => rfl
  null x hx := if_neg (Bool.not_eq_true _ ▸ hx)

theorem compact_reversesEscaping : compact.ReversesEscaping := fun s => ⟨.scalar (.string s), isText_quoted s, rfl⟩

theorem compact_keepsItems : compact.KeepsItems where
  truth b := ⟨.scalar (.bool b), isText_truth b, rfl⟩
  null := ⟨.scalar .null, isText_null, rfl, rfl, rfl, rfl⟩
  numbers_apart content h := by
    cases content with
    | scalar s =>
      cases s with
      | bool b => obtain h | h := h <;> cases h
      | _ => rfl
    | _ => rfl
  strings_apart content h := by
    cases content with
    | scalar s =>
      cases s with
      | string s => exact ⟨rfl, rfl, rfl⟩
      | _ => cases h
    | _ => cases h
  map accept members _ hmembers := toOption_readMap accept members hmembers

end GoalRegression.Json
