/-
What a state holds under a key, with equal values made the same value. Two states are equal exactly when
they hold the same under every key (`beq_iff_content`), and what an operation of states does is an equation
or an implication between contents: `content_apply`, `content_without`, `fulfills_iff`, `isSuperstateOf_iff`,
`clashesWith_eq_false_iff`. What planning does with states is told by contents alone, never by stored values.
-/
import GoalRegression.SortedMap.Lemmas
import GoalRegression.Action.Basic

namespace GoalRegression

/-! ## Representatives of values -/

namespace Value

theorem isDefault_canonical (v : Value) : v.canonical.isDefault = v.isDefault := by
  cases v with
  | float x => exact x.isZero_unsignedZero
  | _ => rfl

theorem bne_eq_false_iff {a b : Value} : (a != b) = false ↔ a.canonical = b.canonical := by
  rw [← beq_iff, bne, Bool.not_eq_false']

end Value

namespace State

/-! ## Contents -/

/-- What the state holds under a key, its value made the representative of the values equal to it. -/
def content (s : State) (key : String) : Option Value := (s.value? key).map Value.canonical

theorem content_eq_some_iff {s : State} {key : String} {v : Value} :
    s.content key = some v ↔ ∃ w, s.value? key = some w ∧ w.canonical = v := by
  unfold content; rw [Option.map_eq_some_iff]

theorem content_eq_none_iff {s : State} {key : String} : s.content key = none ↔ s.value? key = none := by
  unfold content; rw [Option.map_eq_none_iff]

theorem content_of_value? {s : State} {key : String} {v : Value} (h : s.value? key = some v) :
    s.content key = some v.canonical := by
  unfold content; rw [h]; rfl

theorem value?_beq_iff_content {s t : State} {key : String} :
    (s.value? key == t.value? key) = true ↔ s.content key = t.content key := by
  unfold content
  cases s.value? key <;> cases t.value? key <;> simp [Value.beq_iff]

theorem mem_toList_iff {s : State} {key : String} {v : Value} :
    (key, v) ∈ s.toList ↔ s.value? key = some v := SortedMap.mem_entries_iff

theorem lookup_toList (s : State) (key : String) : SortedMap.lookup key s.toList = s.value? key := rfl

theorem ascending_toList (s : State) : s.toList.Pairwise fun a b => compare a.1 b.1 = .lt :=
  s.entries.ascending

@[simp] theorem value?_ofEntries (entries : SortedMap String Value) (key : String) :
    (ofEntries entries).value? key = entries.get? key := rfl

theorem contains_iff {s : State} {key : String} : s.contains key = true ↔ ∃ v, s.value? key = some v :=
  Option.isSome_iff_exists

theorem contains_eq_isSome_content (s : State) (key : String) : s.contains key = (s.content key).isSome := by
  unfold content; rw [Option.isSome_map]; rfl

/-! ## Equality -/

/-- Entries with every value made the representative of its class. -/
def canonicalEntries (entries : List (String × Value)) : List (String × Value) :=
  entries.map fun e => (e.1, e.2.canonical)

theorem lookup_canonicalEntries (key : String) (entries : List (String × Value)) :
    SortedMap.lookup key (canonicalEntries entries) = (SortedMap.lookup key entries).map Value.canonical := by
  induction entries with
  | nil => rfl
  | cons e rest ih =>
    show (if compare key e.1 = .eq then some e.2.canonical else
      SortedMap.lookup key (canonicalEntries rest)) = _
    rw [SortedMap.lookup, ih]
    split <;> rfl

theorem ascending_canonicalEntries {entries : List (String × Value)}
    (h : entries.Pairwise fun a b => compare a.1 b.1 = .lt) :
    (canonicalEntries entries).Pairwise fun a b => compare a.1 b.1 = .lt :=
  List.pairwise_map.2 h

theorem beq_iff_canonicalEntries {xs ys : List (String × Value)} :
    (xs == ys) = true ↔ canonicalEntries xs = canonicalEntries ys := by
  induction xs generalizing ys with
  | nil =>
    cases ys with
    | nil => exact iff_of_true rfl rfl
    | cons y ys => exact iff_of_false (fun h => by cases h) (fun h => by cases h)
  | cons x xs ih =>
    cases ys with
    | nil => exact iff_of_false (fun h => by cases h) (fun h => by cases h)
    | cons y ys =>
      have hhead : (x == y) = true ↔ x.1 = y.1 ∧ x.2.canonical = y.2.canonical := by
        show (x.1 == y.1 && x.2 == y.2) = true ↔ _
        rw [Bool.and_eq_true_iff, beq_iff_eq, Value.beq_iff]
      rw [List.cons_beq_cons, Bool.and_eq_true_iff, ih, hhead]
      simp only [canonicalEntries, List.map_cons, List.cons.injEq, Prod.mk.injEq]

theorem beq_iff_canonicalEntries_toList {s t : State} :
    (s == t) = true ↔ canonicalEntries s.toList = canonicalEntries t.toList := by
  show (s.signature == t.signature && s.toList == t.toList) = true ↔ _
  rw [Bool.and_eq_true_iff, beq_iff_eq, s.signature_eq, t.signature_eq, Signature.ofEntries_eq_iff,
    ← beq_iff_canonicalEntries]
  exact and_iff_right_of_imp id

/-- Two states are equal exactly when they hold the same under every key. -/
theorem beq_iff_content {s t : State} : (s == t) = true ↔ s.content = t.content := by
  rw [beq_iff_canonicalEntries_toList]
  have hcontent : ∀ (u : State) key, SortedMap.lookup key (canonicalEntries u.toList) = u.content key :=
    fun u key => lookup_canonicalEntries key u.toList
  constructor
  · intro h
    exact funext fun key => by rw [← hcontent, ← hcontent, h]
  · intro h
    refine SortedMap.eq_of_lookup_eq (ascending_canonicalEntries s.ascending_toList)
      (ascending_canonicalEntries t.ascending_toList) fun key => ?_
    rw [hcontent, hcontent, h]

instance : EquivBEq State where
  rfl := beq_iff_content.2 rfl
  symm h := beq_iff_content.2 (beq_iff_content.1 h).symm
  trans h h' := beq_iff_content.2 ((beq_iff_content.1 h).trans (beq_iff_content.1 h'))

/-! ## Operations -/

/-- What is stored under a key after a value is set there: an equal value that is stored already stays. -/
def settle (stored : Option Value) (value : Value) : Option Value :=
  if stored == some value then stored else some value

theorem canonical_settle (stored : Option Value) (value : Value) :
    (settle stored value).map Value.canonical = some value.canonical := by
  unfold settle
  cases stored with
  | none => rfl
  | some w =>
    by_cases hw : (w == value) = true
    · simp [hw, Value.beq_iff.1 hw]
    · simp [hw]

theorem get?_put_eq (m : SortedMap String Value) (e : String × Value) (key : String) :
    (put m e).get? key = if key = e.1 then settle (m.get? key) e.2 else m.get? key := by
  unfold put settle
  by_cases hk : key = e.1
  · subst hk
    by_cases hv : (m.get? e.1 == some e.2) = true
    · simp [hv]
    · simp [hv]
  · rw [if_neg hk]
    split
    · rfl
    · rw [SortedMap.get?_insert_of_ne hk]

theorem get?_put (m : SortedMap String Value) (e : String × Value) (key : String) :
    ((put m e).get? key).map Value.canonical =
      if key = e.1 then some e.2.canonical else (m.get? key).map Value.canonical := by
  rw [get?_put_eq]
  split
  · exact canonical_settle _ _
  · rfl

/-- Entries put in turn: of ascending ones each is found, and what they do not mention stays. -/
theorem get?_foldl_put {pairs : List (String × Value)}
    (hp : pairs.Pairwise fun a b => compare a.1 b.1 = .lt) (m : SortedMap String Value) (key : String) :
    ((pairs.foldl put m).get? key).map Value.canonical =
      ((SortedMap.lookup key pairs).map Value.canonical).or ((m.get? key).map Value.canonical) := by
  induction pairs generalizing m with
  | nil => rfl
  | cons e rest ih =>
    obtain ⟨hhead, hrest⟩ := List.pairwise_cons.1 hp
    rw [List.foldl_cons, ih hrest, get?_put, SortedMap.lookup]
    by_cases hk : key = e.1
    · subst hk
      rw [if_pos rfl, if_pos Std.ReflCmp.compare_self, SortedMap.lookup_eq_none_of_lt hhead]
      rfl
    · rw [if_neg hk, if_neg fun h => hk (Std.LawfulEqCmp.eq_of_compare h)]

@[simp] theorem content_apply (s effects : State) (key : String) :
    (s.apply effects).content key = (effects.content key).or (s.content key) :=
  get?_foldl_put effects.ascending_toList s.entries key

theorem content_ofPairs {pairs : List (String × Value)}
    (hp : pairs.Pairwise fun a b => compare a.1 b.1 = .lt) (key : String) :
    (ofPairs pairs).content key = (SortedMap.lookup key pairs).map Value.canonical := by
  refine (get?_foldl_put hp SortedMap.empty key).trans ?_
  rw [SortedMap.get?_empty, Option.map_none, Option.or_none]

/-- Of ascending pairs the states are equal exactly when the pairs are, one by one. -/
theorem ofPairs_beq_iff {xs ys : List (String × Value)}
    (hx : xs.Pairwise fun a b => compare a.1 b.1 = .lt) (hy : ys.Pairwise fun a b => compare a.1 b.1 = .lt) :
    (ofPairs xs == ofPairs ys) = true ↔ canonicalEntries xs = canonicalEntries ys := by
  rw [beq_iff_content]
  constructor
  · intro h
    refine SortedMap.eq_of_lookup_eq (ascending_canonicalEntries hx) (ascending_canonicalEntries hy)
      fun key => ?_
    rw [lookup_canonicalEntries, lookup_canonicalEntries, ← content_ofPairs hx, ← content_ofPairs hy, h]
  · intro h
    funext key
    rw [content_ofPairs hx, content_ofPairs hy, ← lookup_canonicalEntries, ← lookup_canonicalEntries, h]

theorem value?_without (s other : State) (key : String) :
    (s.without other).value? key = if other.contains key then none else s.value? key := by
  unfold without
  rw [value?_ofEntries, SortedMap.get?_filter]
  unfold value?
  cases s.entries.get? key <;> cases other.contains key <;> rfl

@[simp] theorem content_without (s other : State) (key : String) :
    (s.without other).content key = if (other.content key).isSome then none else s.content key := by
  unfold content
  rw [value?_without, ← content, contains_eq_isSome_content]
  split <;> rfl

/-! ## Comparisons -/

theorem fulfills_iff {s : State} {key : String} {v : Value} :
    s.fulfills key v = true ↔ s.content key = some v.canonical ∨ s.content key = none ∧ v.isDefault = true := by
  unfold fulfills content
  cases s.value? key with
  | none => simp
  | some w => simp [Value.beq_iff]

/-- A state provides another one when it fulfills all its entries. -/
theorem isSuperstateOf_iff_fulfills {s other : State} :
    s.isSuperstateOf other = true ↔ ∀ key value, other.value? key = some value → s.fulfills key value = true := by
  unfold isSuperstateOf isSubstateOf
  rw [List.all_eq_true]
  constructor
  · intro h key value hvalue
    exact h (key, value) (mem_toList_iff.2 hvalue)
  · rintro h ⟨key, value⟩ hmem
    exact h key value (mem_toList_iff.1 hmem)

/-- In contents: it holds all of the other, where it may lack defaults. -/
theorem isSuperstateOf_iff {s other : State} :
    s.isSuperstateOf other = true ↔ ∀ key v, other.content key = some v →
      s.content key = some v ∨ s.content key = none ∧ v.isDefault = true := by
  rw [isSuperstateOf_iff_fulfills]
  constructor
  · intro h key v hv
    obtain ⟨w, hw, rfl⟩ := content_eq_some_iff.1 hv
    rw [Value.isDefault_canonical]
    exact fulfills_iff.1 (h key w hw)
  · intro h key w hw
    have := h key w.canonical (content_of_value? hw)
    rw [Value.isDefault_canonical] at this
    exact fulfills_iff.2 this

theorem isSuperstateOf_congr {s s' t t' : State} (hs : (s == s') = true) (ht : (t == t') = true) :
    s.isSuperstateOf t = s'.isSuperstateOf t' := by
  rw [Bool.eq_iff_iff, isSuperstateOf_iff, isSuperstateOf_iff, beq_iff_content.1 hs, beq_iff_content.1 ht]

/-- Under every name that both have, the states hold equal values. -/
def AgreeWhereShared (s other : State) : Prop :=
  ∀ key v w, s.value? key = some v → other.value? key = some w → (v == w) = true

theorem agreeWhereShared_iff {s other : State} :
    s.AgreeWhereShared other ↔ ∀ key v w, s.content key = some v → other.content key = some w → v = w := by
  constructor
  · intro h key v w hv hw
    obtain ⟨x, hx, rfl⟩ := content_eq_some_iff.1 hv
    obtain ⟨y, hy, rfl⟩ := content_eq_some_iff.1 hw
    exact Value.beq_iff.1 (h key x y hx hy)
  · intro h key v w hv hw
    exact Value.beq_iff.2 (h key _ _ (content_of_value? hv) (content_of_value? hw))

/-- Two states do not clash when they hold equal values under every key that both have. -/
theorem clashesWith_eq_false_iff_agreeWhereShared {s other : State} :
    s.clashesWith other = false ↔ s.AgreeWhereShared other := by
  unfold clashesWith
  rw [List.any_eq_false]
  constructor
  · intro h key v w hv hw
    have := h (key, v) (mem_toList_iff.2 hv)
    rw [hw, Option.any_some, Bool.not_eq_true, Value.bne_eq_false_iff] at this
    exact Value.beq_iff.2 this.symm
  · rintro h ⟨key, v⟩ hmem
    cases hw : other.value? key with
    | none => simp
    | some w =>
      rw [Option.any_some, Bool.not_eq_true, Value.bne_eq_false_iff]
      exact (Value.beq_iff.1 (h key v w (mem_toList_iff.1 hmem) hw)).symm

/-- In contents: they hold the same under every key that both have. -/
theorem clashesWith_eq_false_iff {s other : State} :
    s.clashesWith other = false ↔
      ∀ key v w, s.content key = some v → other.content key = some w → v = w :=
  clashesWith_eq_false_iff_agreeWhereShared.trans agreeWhereShared_iff

end State

/-- An action's preconditions are satisfied by the states that provide them. -/
theorem Action.hasUnsatisfiedPreconditions_eq_false_iff {a : Action} {s : State} :
    a.hasUnsatisfiedPreconditions s = false ↔ s.isSuperstateOf a.preconditions = true := by
  unfold Action.hasUnsatisfiedPreconditions State.isSuperstateOf
  rw [Bool.not_eq_false']

end GoalRegression
