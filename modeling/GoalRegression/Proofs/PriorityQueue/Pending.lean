/-
The queue as the list of what waits, each item with its bucket, in the order in which it leaves. Adding an
item puts it behind everything of its own and of lower buckets (`pending_enqueue`), and taking one out takes
the head (`pop?_eq_some`), of which no other bucket is lower (`pending_sorted`). For this no bucket may be
empty, which both operations keep (`WellFormed`).
-/
import GoalRegression.PriorityQueue.Basic
import GoalRegression.SortedMap.Lemmas

namespace GoalRegression.PriorityQueue

variable {α : Type u}

/-! ## The view -/

/-- The items of buckets, each with its bucket. -/
def flatten (buckets : List (Int × List α)) : List (Int × α) := buckets.flatMap fun b => b.2.map (b.1, ·)

/-- Everything that waits with its bucket, in the order in which it leaves. -/
def pending (q : PriorityQueue α) : List (Int × α) := flatten q.buckets.entries

/-- No bucket is empty, and as many items wait as the count says. -/
structure WellFormed (q : PriorityQueue α) : Prop where
  nonempty : ∀ b ∈ q.buckets.entries, b.2 ≠ []
  size_eq : q.size = q.pending.length

theorem flatten_cons (b : Int × List α) (rest : List (Int × List α)) :
    flatten (b :: rest) = b.2.map (b.1, ·) ++ flatten rest := List.flatMap_cons

theorem mem_flatten {buckets : List (Int × List α)} {e : Int × α} (h : e ∈ flatten buckets) :
    ∃ b ∈ buckets, b.1 = e.1 := by
  obtain ⟨b, hb, he⟩ := List.mem_flatMap.1 h
  obtain ⟨x, -, rfl⟩ := List.mem_map.1 he
  exact ⟨b, hb, rfl⟩

theorem fst_eq_of_mem_map {b : Int × List α} {e : Int × α} (h : e ∈ b.2.map (b.1, ·)) : e.1 = b.1 := by
  obtain ⟨x, -, rfl⟩ := List.mem_map.1 h
  rfl

theorem lt_of_mem_flatten {key : Int} {buckets : List (Int × List α)}
    (h : ∀ b ∈ buckets, compare key b.1 = .lt) : ∀ e ∈ flatten buckets, key < e.1 := by
  intro e he
  obtain ⟨b, hb, hbe⟩ := mem_flatten he
  rw [← hbe]
  exact Int.compare_eq_lt.1 (h b hb)

theorem flatten_sorted {buckets : List (Int × List α)}
    (h : buckets.Pairwise fun a b => compare a.1 b.1 = .lt) :
    (flatten buckets).Pairwise fun a b => a.1 ≤ b.1 := by
  induction buckets with
  | nil => exact .nil
  | cons b rest ih =>
    obtain ⟨hhead, hrest⟩ := List.pairwise_cons.1 h
    rw [flatten_cons, List.pairwise_append]
    refine ⟨?_, ih hrest, ?_⟩
    · rw [List.pairwise_map]
      exact List.pairwise_of_forall fun _ _ => Int.le_refl b.1
    · intro x hx y hy
      rw [fst_eq_of_mem_map hx]
      exact Int.le_of_lt (lt_of_mem_flatten hhead y hy)

/-- What waits further back is in no lower bucket. -/
theorem pending_sorted (q : PriorityQueue α) : q.pending.Pairwise fun a b => a.1 ≤ b.1 :=
  flatten_sorted q.buckets.ascending

/-! ## Adding -/

theorem filter_of_lt (key : Int) {xs : List (Int × α)} (h : ∀ e ∈ xs, key < e.1) :
    xs.filter (fun e => decide (e.1 ≤ key)) = [] ∧ xs.filter (fun e => decide (key < e.1)) = xs := by
  refine ⟨List.filter_eq_nil_iff.2 fun e he => ?_, List.filter_eq_self.2 fun e he => decide_eq_true (h e he)⟩
  have := h e he
  simp only [decide_eq_true_eq]
  omega

theorem filter_of_le (key : Int) {xs : List (Int × α)} (h : ∀ e ∈ xs, e.1 ≤ key) :
    xs.filter (fun e => decide (e.1 ≤ key)) = xs ∧ xs.filter (fun e => decide (key < e.1)) = [] := by
  refine ⟨List.filter_eq_self.2 fun e he => decide_eq_true (h e he), List.filter_eq_nil_iff.2 fun e he => ?_⟩
  have := h e he
  simp only [decide_eq_true_eq]
  omega

theorem flatten_insertEntry {buckets : List (Int × List α)}
    (h : buckets.Pairwise fun a b => compare a.1 b.1 = .lt) (key : Int) (item : α) :
    flatten (SortedMap.insertEntry key ((SortedMap.lookup key buckets).getD [] ++ [item]) buckets) =
      (flatten buckets).filter (fun e => decide (e.1 ≤ key)) ++
        (key, item) :: (flatten buckets).filter fun e => decide (key < e.1) := by
  induction buckets with
  | nil => rfl
  | cons b rest ih =>
    obtain ⟨hhead, hrest⟩ := List.pairwise_cons.1 h
    rw [SortedMap.insertEntry, SortedMap.lookup, flatten_cons, List.filter_append, List.filter_append]
    cases hc : compare key b.1 with
    | lt =>
      -- a bucket of its own, in front of all
      have habove : ∀ e ∈ rest, compare key e.1 = .lt := fun e he => Std.TransCmp.lt_trans hc (hhead e he)
      have hown : ∀ e ∈ b.2.map (b.1, ·), key < e.1 := by
        intro e he
        rw [fst_eq_of_mem_map he]
        exact Int.compare_eq_lt.1 hc
      obtain ⟨hown1, hown2⟩ := filter_of_lt key hown
      obtain ⟨hrest1, hrest2⟩ := filter_of_lt key (lt_of_mem_flatten habove)
      rw [if_neg (by decide), SortedMap.lookup_eq_none_of_lt habove, hown1, hown2, hrest1, hrest2]
      rfl
    | eq =>
      -- the end of the first bucket
      obtain rfl : key = b.1 := Int.compare_eq_eq.1 hc
      obtain ⟨hown1, hown2⟩ := filter_of_le b.1 fun e he => Int.le_of_eq (fst_eq_of_mem_map he)
      obtain ⟨hrest1, hrest2⟩ := filter_of_lt b.1 (lt_of_mem_flatten hhead)
      rw [if_pos rfl, hown1, hown2, hrest1, hrest2]
      show flatten ((b.1, b.2 ++ [item]) :: rest) = _
      rw [flatten_cons, List.map_append]
      simp
    | gt =>
      -- somewhere behind the first bucket
      have hown : ∀ e ∈ b.2.map (b.1, ·), e.1 ≤ key := by
        intro e he
        rw [fst_eq_of_mem_map he]
        exact Int.le_of_lt (Int.compare_eq_gt.1 hc)
      obtain ⟨hown1, hown2⟩ := filter_of_le key hown
      rw [if_neg (by decide), hown1, hown2]
      show flatten (b :: SortedMap.insertEntry key _ rest) = _
      rw [flatten_cons, ih hrest]
      simp

/-- An item is put behind everything of its own and of lower buckets, before all higher ones. -/
theorem pending_enqueue (q : PriorityQueue α) (priority : Binary32) (item : α) :
    (q.enqueue priority item).pending =
      q.pending.filter (fun e => decide (e.1 ≤ q.key priority)) ++
        (q.key priority, item) :: q.pending.filter fun e => decide (q.key priority < e.1) :=
  flatten_insertEntry q.buckets.ascending (q.key priority) item

theorem pending_enqueue_perm (q : PriorityQueue α) (priority : Binary32) (item : α) :
    (q.enqueue priority item).pending.Perm ((q.key priority, item) :: q.pending) := by
  rw [pending_enqueue]
  refine List.perm_middle.trans (List.Perm.cons _ ?_)
  have hsplit := List.filter_append_perm (fun e : Int × α => decide (e.1 ≤ q.key priority)) q.pending
  have hneg : (fun e : Int × α => !decide (e.1 ≤ q.key priority)) = fun e => decide (q.key priority < e.1) := by
    funext e
    rw [Bool.eq_iff_iff]
    simp
  rwa [hneg] at hsplit

theorem WellFormed.enqueue {q : PriorityQueue α} (h : q.WellFormed) (priority : Binary32) (item : α) :
    (q.enqueue priority item).WellFormed where
  nonempty b hb := by
    rcases SortedMap.mem_insertEntry hb with rfl | hb
    · simp
    · exact h.nonempty b hb
  size_eq := by
    rw [(pending_enqueue_perm q priority item).length_eq, List.length_cons, ← h.size_eq]
    rfl

@[simp] theorem factor_enqueue (q : PriorityQueue α) (priority : Binary32) (item : α) :
    (q.enqueue priority item).factor = q.factor := rfl

/-! ## Taking out -/

theorem wellFormed_empty : (empty : PriorityQueue α).WellFormed where
  nonempty _ hb := by cases hb
  size_eq := rfl

theorem pop?_eq_none_iff {q : PriorityQueue α} (h : q.WellFormed) : q.pop? = none ↔ q.pending = [] := by
  have hne := h.nonempty
  unfold pop? pending
  cases hb : q.buckets.entries with
  | nil => exact iff_of_true rfl rfl
  | cons b rest =>
    rw [hb] at hne
    obtain ⟨key, items⟩ := b
    match items with
    | [] => exact absurd rfl (hne (key, []) List.mem_cons_self)
    | [item] => simp [flatten_cons]
    | item :: second :: more => simp [flatten_cons]

/-- The lowest bucket without its first item; it goes when nothing is left in it. -/
theorem pending_eq_cons {q : PriorityQueue α} (q' : PriorityQueue α) {key : Int} {item : α} {more : List α}
    {rest : List (Int × List α)} (hb : q.buckets.entries = (key, item :: more) :: rest)
    (hb' : q'.buckets.entries = if more = [] then rest else (key, more) :: rest) (hsize : q'.size = q.size - 1) :
    q.pending = (key, item) :: q'.pending ∧ (q.WellFormed → q'.WellFormed) := by
  have hpending : q.pending = (key, item) :: q'.pending := by
    unfold pending
    rw [hb, hb']
    split
    · next h => rw [h, flatten_cons]; rfl
    · rw [flatten_cons, flatten_cons]; rfl
  refine ⟨hpending, fun hw => ⟨fun b hmem => ?_, ?_⟩⟩
  · have hrest : ∀ c ∈ rest, c.2 ≠ [] := fun c hc =>
      hw.nonempty c (by rw [hb]; exact List.mem_cons_of_mem _ hc)
    rw [hb'] at hmem
    split at hmem
    · exact hrest b hmem
    · next hmore =>
      rcases List.mem_cons.1 hmem with rfl | hmem
      · exact hmore
      · exact hrest b hmem
  · rw [hsize, hw.size_eq, hpending]
    rfl

/-- What is taken out is the head of what waits, and the rest waits on. -/
theorem pop?_eq_some {q q' : PriorityQueue α} {item : α} (h : q.pop? = some (item, q')) :
    (∃ key, q.pending = (key, item) :: q'.pending) ∧ q'.factor = q.factor ∧ (q.WellFormed → q'.WellFormed) := by
  unfold pop? at h
  split at h
  · cases h
  · cases h
  · next key item rest hb =>
    cases h
    obtain ⟨hpending, hw⟩ := pending_eq_cons { q with buckets := q.buckets.eraseFirst, size := q.size - 1 }
      hb (by show q.buckets.entries.tail = _; rw [hb]; rfl) rfl
    exact ⟨⟨key, hpending⟩, rfl, hw⟩
  · next key item more rest hmore hb =>
    cases h
    obtain ⟨hpending, hw⟩ := pending_eq_cons
      { q with buckets := q.buckets.insert key more, size := q.size - 1 } hb (by
        show SortedMap.insertEntry key more q.buckets.entries = _
        rw [hb, if_neg hmore]
        simp only [SortedMap.insertEntry, Std.ReflCmp.compare_self]) rfl
    exact ⟨⟨key, hpending⟩, rfl, hw⟩

end GoalRegression.PriorityQueue
