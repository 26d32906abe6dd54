/-
Setting values one by one and all at once. Setting all pairs of a list is setting each of them in turn, down to the
values that are stored (`extend_eq_foldl_set`): what a name holds in the end is a matter of the pairs of that name
(`value?_extend`), and of these the last one counts (`content_extend`). So applying effects is an associative
operation on states, idempotent and with the empty state as its unit, and two effects can change places exactly when
they agree where both have a say (`extend_composes`).
-/
import GoalRegression.Proofs.State.Content

namespace GoalRegression.State

variable {s t : State} {key : String}

/-! ## One value -/

theorem value?_beq_some_iff {v : Value} : (s.value? key == some v) = true ↔ s.content key = some v.canonical := by
  unfold content
  cases s.value? key <;> simp [Value.beq_iff]

/-- A state is determined by its entries. -/
theorem ext_entries (h : s.entries = t.entries) : s = t := by
  obtain ⟨entries, _, rfl⟩ := s
  obtain ⟨entries', _, rfl⟩ := t
  obtain rfl : entries = entries' := h
  rfl

theorem entries_set (s : State) (key : String) (value : Value) :
    (s.set key value).entries = put s.entries (key, value) := by
  unfold set put value?
  split <;> rfl

theorem entries_remove (s : State) (key : String) : (s.remove key).entries = s.entries.erase key := by
  unfold remove
  split
  · rfl
  · next h =>
    -- a name that is absent can be taken out all the same
    refine SortedMap.ext_get? fun k => ?_
    rw [SortedMap.get?_erase]
    split
    · next hk =>
      obtain rfl := Std.LawfulEqCmp.eq_of_compare hk
      simpa [contains, SortedMap.contains] using h
    · rfl

theorem value?_set (s : State) (k : String) (value : Value) (key : String) :
    (s.set k value).value? key = if k = key then settle (s.value? key) value else s.value? key := by
  show (s.set k value).entries.get? key = _
  rw [entries_set, get?_put_eq]
  simp only [eq_comm]
  rfl

@[simp] theorem content_set (s : State) (k : String) (value : Value) (key : String) :
    (s.set k value).content key = if k = key then some value.canonical else s.content key := by
  unfold content
  rw [value?_set]
  split
  · exact canonical_settle _ _
  · rfl

@[simp] theorem content_remove (s : State) (k : String) (key : String) :
    (s.remove k).content key = if k = key then none else s.content key := by
  show ((s.remove k).entries.get? key).map _ = _
  rw [entries_remove, SortedMap.get?_erase]
  simp only [Std.LawfulEqCmp.compare_eq_iff_eq]
  split <;> rfl

/-! ## All pairs of a list -/

/-- Setting all pairs at once is setting them in turn. -/
theorem extend_eq_foldl_set (s : State) (pairs : List (String × Value)) :
    s.extend pairs = pairs.foldl (fun s e => s.set e.1 e.2) s := by
  refine ext_entries ?_
  show pairs.foldl put s.entries = _
  induction pairs generalizing s with
  | nil => rfl
  | cons e pairs ih => rw [List.foldl_cons, List.foldl_cons, ← ih, entries_set]

theorem extend_cons (s : State) (e : String × Value) (pairs : List (String × Value)) :
    s.extend (e :: pairs) = (s.set e.1 e.2).extend pairs := by
  rw [extend_eq_foldl_set, extend_eq_foldl_set, List.foldl_cons]

/-- What a name holds after all pairs: the values of its own pairs come to it in turn. -/
theorem value?_extend (s : State) (pairs : List (String × Value)) (key : String) :
    (s.extend pairs).value? key =
      (pairs.filter (·.1 == key)).foldl (fun stored e => settle stored e.2) (s.value? key) := by
  induction pairs generalizing s with
  | nil => rfl
  | cons e pairs ih =>
    rw [extend_cons, ih, value?_set]
    by_cases hk : e.1 = key
    · rw [if_pos hk, List.filter_cons_of_pos (by simpa using hk), List.foldl_cons]
    · rw [if_neg hk, List.filter_cons_of_neg (by simpa using hk)]

/-- Up to equality the last pair of a name counts, and a name without pairs keeps what it holds. -/
theorem content_extend (s : State) (pairs : List (String × Value)) (key : String) :
    (s.extend pairs).content key =
      ((pairs.filter (·.1 == key)).getLast?.map (·.2.canonical)).or (s.content key) := by
  induction pairs generalizing s with
  | nil => rfl
  | cons e pairs ih =>
    rw [extend_cons, ih, content_set]
    by_cases hk : e.1 = key
    · rw [if_pos hk, List.filter_cons_of_pos (by simpa using hk), List.getLast?_cons]
      cases (pairs.filter (·.1 == key)).getLast? <;> rfl
    · rw [if_neg hk, List.filter_cons_of_neg (by simpa using hk)]

/-! ## Effects after effects -/

theorem apply_assoc (a b c : State) : ((a.apply b).apply c == a.apply (b.apply c)) = true :=
  beq_iff_content.2 (funext fun key => by simp only [content_apply, Option.or_assoc])

theorem content_empty (key : String) : empty.content key = none := rfl

theorem apply_empty (a : State) : (a.apply empty == a) = true :=
  beq_iff_content.2 (funext fun key => by rw [content_apply, content_empty, Option.none_or])

theorem empty_apply (a : State) : (empty.apply a == a) = true :=
  beq_iff_content.2 (funext fun key => by rw [content_apply, content_empty, Option.or_none])

theorem apply_self (a : State) : (a.apply a == a) = true :=
  beq_iff_content.2 (funext fun key => by rw [content_apply, Option.or_self])

theorem apply_apply_self (a b : State) : ((a.apply b).apply b == a.apply b) = true :=
  beq_iff_content.2 (funext fun key => by rw [content_apply, content_apply, ← Option.or_assoc, Option.or_self])

/-- Two effects can change places exactly when they agree where both have a say. -/
theorem apply_comm_iff {a b : State} : (a.apply b == b.apply a) = true ↔ a.AgreeWhereShared b := by
  rw [beq_iff_content, agreeWhereShared_iff]
  constructor
  · intro h key v w hv hw
    have hkey := congrFun h key
    rw [content_apply, content_apply, hv, hw] at hkey
    exact (Option.some.inj hkey).symm
  · intro h
    funext key
    rw [content_apply, content_apply]
    cases hv : a.content key with
    | none => rw [Option.or_none, Option.none_or]
    | some v =>
      cases hw : b.content key with
      | none => rfl
      | some w => rw [h key v w hv hw]

/-- Setting all pairs of a list is setting them in turn: an equal value that is stored stays, of unequal ones the later
one wins, and no other name is touched. Hence effects compose: bringing them together first makes no difference,
nothing changes by the empty state or by the same effects once more, and the order of two effects matters exactly if
they differ under a name that both have. -/
theorem extend_composes :
    (∀ (s : State) (pairs : List (String × Value)),
      s.extend pairs = pairs.foldl (fun s e => s.set e.1 e.2) s ∧
      (∀ key, (s.extend pairs).value? key =
        (pairs.filter (·.1 == key)).foldl (fun stored e => settle stored e.2) (s.value? key)) ∧
      (∀ key e, (pairs.filter (·.1 == key)).getLast? = some e → ((s.extend pairs).value? key == some e.2) = true) ∧
      ∀ key, key ∉ pairs.map (·.1) → (s.extend pairs).value? key = s.value? key) ∧
    (∀ a b c : State, ((a.apply b).apply c == a.apply (b.apply c)) = true) ∧
    (∀ a : State, (a.apply empty == a) = true ∧ (empty.apply a == a) = true ∧ (a.apply a == a) = true) ∧
    (∀ a b : State, ((a.apply b).apply b == a.apply b) = true) ∧
    ∀ a b : State, (a.apply b == b.apply a) = true ↔ a.AgreeWhereShared b := by
  refine ⟨fun s pairs => ⟨extend_eq_foldl_set s pairs, value?_extend s pairs, ?_, ?_⟩, apply_assoc,
    fun a => ⟨apply_empty a, empty_apply a, apply_self a⟩, apply_apply_self, fun a b => apply_comm_iff⟩
  · intro key e hlast
    rw [value?_beq_some_iff, content_extend, hlast]
    rfl
  · intro key hkey
    have hnone : pairs.filter (·.1 == key) = [] := by
      rw [List.filter_eq_nil_iff]
      intro e he hk
      exact hkey (List.mem_map.2 ⟨e, he, by simpa using hk⟩)
    rw [value?_extend, hnone]
    rfl

/-- The zero that was stored stays through the negative one, and does not come back after the one. -/
example : ([[.float (.zero true)], [.int 1, .float (.zero true)]].map fun values =>
    ((empty.set "x" (.float (.zero false))).extend (values.map ("x", ·))).value? "x") =
      [some (.float (.zero false)), some (.float (.zero true))] := by decide +kernel

end GoalRegression.State
