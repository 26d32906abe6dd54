/-
Lookups after each operation on a sorted map, membership as a lookup, and extensionality: a sorted map
is determined by its lookups. A map is rebuilt from its entries.
-/
import GoalRegression.SortedMap.Basic

namespace GoalRegression.SortedMap

variable {κ : Type u} {β : Type v} [Ord κ] [Std.TransOrd κ] [Std.LawfulEqOrd κ]

/-! ## Entries and lookups -/

omit [Std.TransOrd κ] [Std.LawfulEqOrd κ] in
theorem lookup_eq_none_of_lt {k : κ} {entries : List (κ × β)}
    (h : ∀ e ∈ entries, compare k e.1 = .lt) : lookup k entries = none := by
  induction entries with
  | nil => rfl
  | cons e rest ih =>
    have he := h e List.mem_cons_self
    rw [lookup, if_neg (by rw [he]; decide)]
    exact ih fun a ha => h a (List.mem_cons_of_mem _ ha)

omit [Std.TransOrd κ] in
theorem mem_of_lookup {k : κ} {v : β} {entries : List (κ × β)} (h : lookup k entries = some v) :
    (k, v) ∈ entries := by
  induction entries with
  | nil => cases h
  | cons e rest ih =>
    unfold lookup at h
    split at h
    · next heq =>
      cases h
      rw [Std.LawfulEqCmp.eq_of_compare heq]
      exact List.mem_cons_self
    · exact List.mem_cons_of_mem _ (ih h)

theorem lookup_of_mem {k : κ} {v : β} {entries : List (κ × β)}
    (hs : entries.Pairwise fun a b => compare a.1 b.1 = .lt) (h : (k, v) ∈ entries) :
    lookup k entries = some v := by
  induction entries with
  | nil => cases h
  | cons e rest ih =>
    obtain ⟨hhead, hrest⟩ := List.pairwise_cons.1 hs
    rcases List.mem_cons.1 h with rfl | h
    · rw [lookup, if_pos Std.ReflCmp.compare_self]
    · have hlt := hhead _ h
      rw [lookup, if_neg, ih hrest h]
      rw [Std.OrientedCmp.gt_of_lt hlt]; decide

/-- A key and value are an entry exactly when looking the key up gives the value. -/
theorem mem_entries_iff {m : SortedMap κ β} {k : κ} {v : β} : (k, v) ∈ m.entries ↔ m.get? k = some v :=
  ⟨lookup_of_mem m.ascending, mem_of_lookup⟩

theorem eq_of_lookup_eq {xs ys : List (κ × β)} (hx : xs.Pairwise fun a b => compare a.1 b.1 = .lt)
    (hy : ys.Pairwise fun a b => compare a.1 b.1 = .lt) (h : ∀ k, lookup k xs = lookup k ys) : xs = ys := by
  induction xs generalizing ys with
  | nil =>
    cases ys with
    | nil => rfl
    | cons y ys => have := h y.1; simp [lookup, Std.ReflCmp.compare_self] at this
  | cons x xs ih =>
    obtain ⟨hxh, hxs⟩ := List.pairwise_cons.1 hx
    cases ys with
    | nil => have := h x.1; simp [lookup, Std.ReflCmp.compare_self] at this
    | cons y ys =>
      obtain ⟨hyh, hys⟩ := List.pairwise_cons.1 hy
      have hk : compare x.1 y.1 = .eq := by
        cases hc : compare x.1 y.1 with
        | eq => rfl
        | lt =>
          have := h x.1
          rw [lookup, if_pos Std.ReflCmp.compare_self, lookup, if_neg (by rw [hc]; decide),
            lookup_eq_none_of_lt fun e he => Std.TransCmp.lt_trans hc (hyh e he)] at this
          cases this
        | gt =>
          have hc' := Std.OrientedCmp.lt_of_gt hc
          have := h y.1
          rw [lookup, if_neg (by rw [hc']; decide),
            lookup_eq_none_of_lt fun e he => Std.TransCmp.lt_trans hc' (hxh e he), lookup,
            if_pos Std.ReflCmp.compare_self] at this
          cases this
      have hkey := Std.LawfulEqCmp.eq_of_compare hk
      obtain ⟨k, v⟩ := x
      obtain ⟨k', v'⟩ := y
      cases hkey
      have hv := h k
      simp only [lookup, Std.ReflCmp.compare_self, if_pos] at hv
      cases hv
      congr 1
      refine ih hxs hys fun j => ?_
      have := h j
      by_cases hj : compare j k = .eq
      · cases Std.LawfulEqCmp.eq_of_compare hj
        rw [lookup_eq_none_of_lt fun e he => hxh e he, lookup_eq_none_of_lt fun e he => hyh e he]
      · simpa only [lookup, if_neg hj] using this

/-- Two sorted maps with the same lookups are the same map. -/
theorem ext_get? {m n : SortedMap κ β} (h : ∀ k, m.get? k = n.get? k) : m = n := by
  obtain ⟨xs, hx⟩ := m
  obtain ⟨ys, hy⟩ := n
  cases eq_of_lookup_eq hx hy h
  rfl

/-! ## Lookups after an operation -/

omit [Std.TransOrd κ] [Std.LawfulEqOrd κ] in
@[simp] theorem get?_empty (k : κ) : (SortedMap.empty : SortedMap κ β).get? k = none := rfl

theorem lookup_insertEntry (k j : κ) (v : β) (entries : List (κ × β)) :
    lookup j (insertEntry k v entries) = if compare j k = .eq then some v else lookup j entries := by
  induction entries with
  | nil => rfl
  | cons e rest ih =>
    unfold insertEntry
    split
    · rfl
    · next heq =>
      cases Std.LawfulEqCmp.eq_of_compare heq
      simp only [lookup]
      split <;> rfl
    · next hgt =>
      simp only [lookup, ih]
      split
      · next hje =>
        cases Std.LawfulEqCmp.eq_of_compare hje
        rw [if_neg]
        rw [Std.OrientedCmp.lt_of_gt hgt]; decide
      · rfl

theorem get?_insert (m : SortedMap κ β) (k j : κ) (v : β) :
    (m.insert k v).get? j = if compare j k = .eq then some v else m.get? j :=
  lookup_insertEntry k j v m.entries

@[simp] theorem get?_insert_self (m : SortedMap κ β) (k : κ) (v : β) : (m.insert k v).get? k = some v := by
  rw [get?_insert, if_pos Std.ReflCmp.compare_self]

theorem get?_insert_of_ne {m : SortedMap κ β} {k j : κ} {v : β} (h : j ≠ k) :
    (m.insert k v).get? j = m.get? j := by
  rw [get?_insert, if_neg fun he => h (Std.LawfulEqCmp.eq_of_compare he)]

theorem get?_filter (m : SortedMap κ β) (keep : κ → β → Bool) (k : κ) :
    (m.filter keep).get? k = (m.get? k).filter (keep k) := by
  apply Option.ext
  intro v
  rw [← mem_entries_iff, Option.filter_eq_some_iff, ← mem_entries_iff]
  exact List.mem_filter

theorem get?_erase (m : SortedMap κ β) (k j : κ) :
    (m.erase k).get? j = if compare k j = .eq then none else m.get? j := by
  rw [erase, get?_filter]
  cases m.get? j with
  | none => simp
  | some v => by_cases h : compare k j = .eq <;> simp [h]

theorem get?_update (m : SortedMap κ β) (k j : κ) (change : Option β → β) :
    (m.update k change).get? j = if compare j k = .eq then some (change (m.get? k)) else m.get? j :=
  get?_insert m k j _

/-- Updates under ascending keys, each made from a value of its own, change what is under these keys and nothing
else. -/
theorem get?_foldl_update {γ : Type w} {entries : List (κ × γ)}
    (h : entries.Pairwise fun a b => compare a.1 b.1 = .lt) (change : γ → Option β → β) (m : SortedMap κ β) (k : κ) :
    (entries.foldl (fun m e => m.update e.1 (change e.2)) m).get? k =
      match lookup k entries with
      | some v => some (change v (m.get? k))
      | none => m.get? k := by
  induction entries generalizing m with
  | nil => rfl
  | cons e rest ih =>
    obtain ⟨hhead, hrest⟩ := List.pairwise_cons.1 h
    rw [List.foldl_cons, ih hrest, lookup, get?_update]
    by_cases hk : compare k e.1 = .eq
    · have hkey : k = e.1 := Std.LawfulEqCmp.eq_of_compare hk
      rw [if_pos hk, if_pos hk, hkey, lookup_eq_none_of_lt hhead]
    · rw [if_neg hk, if_neg hk]

theorem contains_iff {m : SortedMap κ β} {k : κ} : m.contains k = true ↔ k ∈ m.keys := by
  unfold contains keys
  rw [Option.isSome_iff_exists, List.mem_map]
  constructor
  · rintro ⟨v, h⟩
    exact ⟨(k, v), mem_entries_iff.2 h, rfl⟩
  · rintro ⟨⟨j, v⟩, h, rfl⟩
    exact ⟨v, mem_entries_iff.1 h⟩

/-! ## Building from entries -/

omit [Std.LawfulEqOrd κ] in
theorem insertEntry_of_gt {k : κ} {v : β} {entries : List (κ × β)} (h : ∀ e ∈ entries, compare e.1 k = .lt) :
    insertEntry k v entries = entries ++ [(k, v)] := by
  induction entries with
  | nil => rfl
  | cons e rest ih =>
    have hgt : compare k e.1 = .gt := Std.OrientedCmp.gt_of_lt (h e List.mem_cons_self)
    simp only [insertEntry, hgt, List.cons_append]
    rw [ih fun a ha => h a (List.mem_cons_of_mem _ ha)]

omit [Std.LawfulEqOrd κ] in
/-- Entries that go on ascending after those of a map are put at its end. -/
theorem entries_foldl_insert {m : SortedMap κ β} {entries : List (κ × β)}
    (h : (m.entries ++ entries).Pairwise fun a b => compare a.1 b.1 = .lt) :
    (entries.foldl (fun m e => m.insert e.1 e.2) m).entries = m.entries ++ entries := by
  induction entries generalizing m with
  | nil => exact (List.append_nil _).symm
  | cons e rest ih =>
    have hlast : (m.insert e.1 e.2).entries = m.entries ++ [e] :=
      insertEntry_of_gt fun a ha => (List.pairwise_append.1 h).2.2 a ha e List.mem_cons_self
    have happend : (m.insert e.1 e.2).entries ++ rest = m.entries ++ e :: rest := by
      rw [hlast, List.append_assoc, List.singleton_append]
    rw [List.foldl_cons, ih (happend ▸ h), happend]

omit [Std.LawfulEqOrd κ] in
/-- A map is the one of its entries. -/
theorem ofList_entries (m : SortedMap κ β) : ofList m.entries = m := by
  have hentries : (ofList m.entries).entries = m.entries :=
    entries_foldl_insert (m := .empty) m.ascending
  generalize ofList m.entries = n at hentries
  cases m
  cases n
  cases hentries
  rfl

end GoalRegression.SortedMap
