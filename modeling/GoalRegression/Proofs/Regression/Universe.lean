/-
The states that can come to be owed on the way back from a goal: those that bind only variables of the goal
and of preconditions, each to a value that is required of it somewhere (`Owable`). Regression never leaves
them (`Owable.regress?`), and the requirements list them up to equality (`mem_states_iff`), each once
(`states_distinct`), so that the product `stateCount` is their number (`length_states`).
-/
import GoalRegression.Proofs.Regression.Weakest
import GoalRegression.Regression.Requirements

namespace GoalRegression

/-! ## Lists without equal elements -/

theorem length_le_of_contains {α : Type u} [BEq α] [EquivBEq α] {xs ys : List α}
    (hxs : xs.Pairwise fun a b => (a == b) = false) (h : ∀ x ∈ xs, ys.contains x = true) :
    xs.length ≤ ys.length := by
  induction xs generalizing ys with
  | nil => exact Nat.zero_le _
  | cons x xs ih =>
    obtain ⟨hhead, htail⟩ := List.pairwise_cons.1 hxs
    obtain ⟨y, hy, hxy⟩ := List.contains_iff_exists_mem_beq.1 (h x List.mem_cons_self)
    obtain ⟨before, after, rfl⟩ := List.append_of_mem hy
    -- the others are contained without `y`, since only `x` equals it
    have hrest : ∀ z ∈ xs, (before ++ after).contains z = true := by
      intro z hz
      obtain ⟨w, hw, hzw⟩ := List.contains_iff_exists_mem_beq.1 (h z (List.mem_cons_of_mem _ hz))
      refine List.contains_iff_exists_mem_beq.2 ⟨w, ?_, hzw⟩
      rcases List.mem_append.1 hw with hw | hw
      · exact List.mem_append_left _ hw
      · rcases List.mem_cons.1 hw with rfl | hw
        · have := hhead z hz
          rw [BEq.trans hxy (BEq.symm hzw)] at this
          cases this
        · exact List.mem_append_right _ hw
    have := ih htail hrest
    rw [List.length_append] at this ⊢
    rw [List.length_cons, List.length_cons]
    omega

/-! ## What is required -/

/-- The goal or a precondition of an action gives the variable this value. -/
def Required (goal : State) (actions : ActionSet) (key : String) (value : Value) : Prop :=
  goal.value? key = some value ∨ ∃ a ∈ actions.actions, a.preconditions.value? key = some value

/-- The state binds only variables of the goal and of preconditions, each to a value equal to one that is
required of it. -/
def Owable (goal : State) (actions : ActionSet) (s : State) : Prop :=
  ∀ key v, s.value? key = some v → ∃ w, Required goal actions key w ∧ (v == w) = true

variable {goal : State} {actions : ActionSet} {s t : State}

theorem owable_iff_content :
    Owable goal actions s ↔
      ∀ key c, s.content key = some c → ∃ w, Required goal actions key w ∧ w.canonical = c := by
  constructor
  · intro h key c hc
    obtain ⟨v, hv, rfl⟩ := State.content_eq_some_iff.1 hc
    obtain ⟨w, hw, hvw⟩ := h key v hv
    exact ⟨w, hw, (Value.beq_iff.1 hvw).symm⟩
  · intro h key v hv
    obtain ⟨w, hw, heq⟩ := h key _ (State.content_of_value? hv)
    exact ⟨w, hw, Value.beq_iff.2 heq.symm⟩

theorem Owable.congr (h : Owable goal actions s) (heq : (s == t) = true) : Owable goal actions t := by
  rw [owable_iff_content] at h ⊢
  rwa [← State.beq_iff_content.1 heq]

theorem owable_goal (goal : State) (actions : ActionSet) : Owable goal actions goal :=
  fun _ v hv => ⟨v, .inl hv, BEq.rfl⟩

/-- Regression through an action of the set stays among the states that can be owed. -/
theorem Owable.regress? {a : Action} (h : Owable goal actions s) (ha : a ∈ actions.actions)
    (hnext : s.regress? a = some t) : Owable goal actions t := by
  rw [owable_iff_content] at h ⊢
  intro key c hc
  rw [State.content_of_regress? hnext] at hc
  cases hp : a.preconditions.content key with
  | some v =>
    rw [hp, Option.some_or] at hc
    cases hc
    obtain ⟨w, hw, hwc⟩ := State.content_eq_some_iff.1 hp
    exact ⟨w, .inr ⟨a, ha, hw⟩, hwc⟩
  | none =>
    rw [hp, Option.none_or] at hc
    split at hc
    · cases hc
    · exact h key c hc

/-! ## The requirements of a goal -/

namespace Requirements

/-- The values required of a variable. -/
def values (r : Requirements) (key : String) : List Value := (r.get? key).getD []

theorem values_add (r : Requirements) (pair : String × Value) (key : String) :
    (r.add pair).values key =
      if key = pair.1 then
        if (r.values key).contains pair.2 then r.values key else pair.2 :: r.values key
      else r.values key := by
  unfold values add
  rw [SortedMap.get?_update]
  by_cases h : key = pair.1
  · subst h
    rw [if_pos Std.ReflCmp.compare_self, if_pos rfl]
    rfl
  · rw [if_neg fun hc => h (Std.LawfulEqCmp.eq_of_compare hc), if_neg h]

theorem contains_values_add {r : Requirements} {pair : String × Value} {key : String} {v : Value} :
    ((r.add pair).values key).contains v = true ↔
      (r.values key).contains v = true ∨ key = pair.1 ∧ (v == pair.2) = true := by
  rw [values_add]
  split
  · next hkey =>
    split
    · next hknown =>
      refine ⟨.inl, fun h => h.elim id fun ⟨_, hv⟩ => ?_⟩
      obtain ⟨w, hw, hpw⟩ := List.contains_iff_exists_mem_beq.1 hknown
      exact List.contains_iff_exists_mem_beq.2 ⟨w, hw, BEq.trans hv hpw⟩
    · rw [List.contains_cons, Bool.or_eq_true]
      constructor
      · rintro (h | h)
        · exact .inr ⟨hkey, h⟩
        · exact .inl h
      · rintro (h | ⟨-, h⟩)
        · exact .inr h
        · exact .inl h
  · next hkey => exact ⟨.inl, fun h => h.elim id fun ⟨hk, _⟩ => absurd hk hkey⟩

theorem contains_values_foldl {pairs : List (String × Value)} {r : Requirements} {key : String} {v : Value} :
    ((pairs.foldl add r).values key).contains v = true ↔
      (r.values key).contains v = true ∨ ∃ w, (key, w) ∈ pairs ∧ (v == w) = true := by
  induction pairs generalizing r with
  | nil => exact ⟨.inl, fun h => h.elim id fun ⟨_, hw, _⟩ => absurd hw List.not_mem_nil⟩
  | cons pair pairs ih =>
    rw [List.foldl_cons, ih, contains_values_add]
    constructor
    · rintro ((h | ⟨rfl, h⟩) | ⟨w, hw, h⟩)
      · exact .inl h
      · exact .inr ⟨pair.2, List.mem_cons_self, h⟩
      · exact .inr ⟨w, List.mem_cons_of_mem _ hw, h⟩
    · rintro (h | ⟨w, hw, h⟩)
      · exact .inl (.inl h)
      · rcases List.mem_cons.1 hw with rfl | hw
        · exact .inl (.inr ⟨rfl, h⟩)
        · exact .inr ⟨w, hw, h⟩

/-- What the goal and the preconditions require, entry by entry. -/
def pairs (goal : State) (actions : ActionSet) : List (String × Value) :=
  goal.toList ++ actions.actions.toList.flatMap (·.preconditions.toList)

theorem mem_pairs_iff {key : String} {v : Value} :
    (key, v) ∈ pairs goal actions ↔ Required goal actions key v := by
  unfold pairs Required
  rw [List.mem_append, State.mem_toList_iff, List.mem_flatMap]
  simp only [State.mem_toList_iff, Array.mem_toList_iff]

theorem contains_values_ofGoal {key : String} {v : Value} :
    ((ofGoal goal actions).values key).contains v = true ↔
      ∃ w, Required goal actions key w ∧ (v == w) = true := by
  show (((pairs goal actions).foldl add .empty).values key).contains v = true ↔ _
  rw [contains_values_foldl]
  simp only [mem_pairs_iff]
  refine ⟨fun h => h.resolve_left fun hempty => ?_, .inr⟩
  cases hempty

theorem values_distinct_foldl {pairs : List (String × Value)} {r : Requirements} {key : String}
    (h : (r.values key).Pairwise fun a b => (a == b) = false) :
    ((pairs.foldl add r).values key).Pairwise fun a b => (a == b) = false := by
  induction pairs generalizing r with
  | nil => exact h
  | cons pair pairs ih =>
    refine ih ?_
    rw [values_add]
    split
    · split
      · exact h
      · next hnew =>
        refine List.pairwise_cons.2 ⟨fun w hw => ?_, h⟩
        rw [← Bool.not_eq_true]
        exact fun heq => hnew (List.contains_iff_exists_mem_beq.2 ⟨w, hw, heq⟩)
    · exact h

/-- No value is listed twice. -/
theorem values_distinct (goal : State) (actions : ActionSet) (key : String) :
    ((ofGoal goal actions).values key).Pairwise fun a b => (a == b) = false :=
  values_distinct_foldl .nil

/-! ## The states that can be owed -/

/-- All ways to bind some of the variables, each to one of the values listed for it. -/
def bindings : List (String × List Value) → List (List (String × Value))
  | [] => [[]]
  | e :: rest => bindings rest ++ e.2.flatMap fun v => (bindings rest).map ((e.1, v) :: ·)

/-- The states that can be owed, up to equality. -/
def states (r : Requirements) : List State := (bindings r.entries).map State.ofPairs

theorem length_bindings (entries : List (String × List Value)) :
    (bindings entries).length = entries.foldr (fun e n => (e.2.length + 1) * n) 1 := by
  induction entries with
  | nil => rfl
  | cons e rest ih =>
    rw [bindings, List.length_append, List.length_flatMap]
    simp only [List.length_map, List.map_const', List.sum_replicate_nat, List.foldr_cons, ← ih]
    rw [Nat.add_mul, Nat.one_mul, Nat.add_comm]

/-- The states that can be owed are as many as the requirements count. -/
theorem length_states (r : Requirements) : r.states.length = r.stateCount := by
  unfold states stateCount
  rw [List.length_map, length_bindings]

theorem mem_bindings_cons {e : String × List Value} {rest : List (String × List Value)}
    {pairs : List (String × Value)} :
    pairs ∈ bindings (e :: rest) ↔
      pairs ∈ bindings rest ∨ ∃ v ∈ e.2, ∃ others ∈ bindings rest, (e.1, v) :: others = pairs := by
  rw [bindings, List.mem_append, List.mem_flatMap]
  simp only [List.mem_map]

/-- Bindings take their variables and values from the lists. -/
theorem exists_entry_of_mem_bindings {entries : List (String × List Value)} {pairs : List (String × Value)}
    (h : pairs ∈ bindings entries) : ∀ pair ∈ pairs, ∃ e ∈ entries, e.1 = pair.1 ∧ pair.2 ∈ e.2 := by
  induction entries generalizing pairs with
  | nil =>
    obtain rfl := List.mem_singleton.1 h
    exact fun _ h => absurd h List.not_mem_nil
  | cons e rest ih =>
    intro pair hpair
    rcases mem_bindings_cons.1 h with h | ⟨v, hv, others, hothers, rfl⟩
    · obtain ⟨e', he', heq⟩ := ih h pair hpair
      exact ⟨e', List.mem_cons_of_mem _ he', heq⟩
    · rcases List.mem_cons.1 hpair with rfl | hpair
      · exact ⟨e, List.mem_cons_self, rfl, hv⟩
      · obtain ⟨e', he', heq⟩ := ih hothers pair hpair
        exact ⟨e', List.mem_cons_of_mem _ he', heq⟩

section Ascending

variable {e : String × List Value} {entries rest : List (String × List Value)}

theorem lt_of_mem_bindings (h : ∀ e' ∈ rest, compare e.1 e'.1 = .lt) {pairs : List (String × Value)}
    (hpairs : pairs ∈ bindings rest) : ∀ pair ∈ pairs, compare e.1 pair.1 = .lt := by
  intro pair hpair
  obtain ⟨e', he', hkey, -⟩ := exists_entry_of_mem_bindings hpairs pair hpair
  exact hkey ▸ h e' he'

theorem ascending_of_mem_bindings (h : entries.Pairwise fun a b => compare a.1 b.1 = .lt)
    {pairs : List (String × Value)} (hpairs : pairs ∈ bindings entries) :
    pairs.Pairwise fun a b => compare a.1 b.1 = .lt := by
  induction entries generalizing pairs with
  | nil =>
    obtain rfl := List.mem_singleton.1 hpairs
    exact .nil
  | cons e rest ih =>
    obtain ⟨hhead, hrest⟩ := List.pairwise_cons.1 h
    rcases mem_bindings_cons.1 hpairs with hpairs | ⟨v, -, others, hothers, rfl⟩
    · exact ih hrest hpairs
    · exact List.pairwise_cons.2 ⟨lt_of_mem_bindings hhead hothers, ih hrest hothers⟩

/-- If every value that contents give a variable is listed for it, some binding has these contents. -/
theorem exists_binding (h : entries.Pairwise fun a b => compare a.1 b.1 = .lt) {c : String → Option Value}
    (hc : ∀ e ∈ entries, ∀ x, c e.1 = some x → ∃ v ∈ e.2, v.canonical = x) :
    ∃ pairs ∈ bindings entries, ∀ e ∈ entries, (SortedMap.lookup e.1 pairs).map Value.canonical = c e.1 := by
  induction entries with
  | nil => exact ⟨[], List.mem_singleton_self [], fun _ h => absurd h List.not_mem_nil⟩
  | cons e rest ih =>
    obtain ⟨hhead, hrest⟩ := List.pairwise_cons.1 h
    obtain ⟨pairs, hpairs, hlookup⟩ := ih hrest fun e' he' => hc e' (List.mem_cons_of_mem _ he')
    cases hce : c e.1 with
    | none =>
      -- the first variable stays unbound
      refine ⟨pairs, mem_bindings_cons.2 (.inl hpairs), fun e' he' => ?_⟩
      rcases List.mem_cons.1 he' with rfl | he'
      · rw [SortedMap.lookup_eq_none_of_lt (lt_of_mem_bindings hhead hpairs), hce]
        rfl
      · exact hlookup e' he'
    | some x =>
      obtain ⟨v, hv, rfl⟩ := hc e List.mem_cons_self x hce
      refine ⟨(e.1, v) :: pairs, mem_bindings_cons.2 (.inr ⟨v, hv, pairs, hpairs, rfl⟩), fun e' he' => ?_⟩
      rw [SortedMap.lookup]
      rcases List.mem_cons.1 he' with rfl | he'
      · rw [if_pos Std.ReflCmp.compare_self, hce]
        rfl
      · rw [if_neg, hlookup e' he']
        rw [Std.OrientedCmp.gt_of_lt (hhead e' he')]
        decide

theorem bindings_distinct (h : entries.Pairwise fun a b => compare a.1 b.1 = .lt)
    (hvalues : ∀ e ∈ entries, e.2.Pairwise fun a b => (a == b) = false) :
    (bindings entries).Pairwise fun a b => State.canonicalEntries a ≠ State.canonicalEntries b := by
  induction entries with
  | nil => exact List.pairwise_singleton ..
  | cons e rest ih =>
    obtain ⟨hhead, hrest⟩ := List.pairwise_cons.1 h
    have ih := ih hrest fun e' he' => hvalues e' (List.mem_cons_of_mem _ he')
    rw [bindings, List.pairwise_append, List.pairwise_flatMap]
    refine ⟨ih, ⟨fun v _ => ?_, ?_⟩, fun pairs hpairs longer hlonger heq => ?_⟩
    · -- the same value of the first variable: the rests differ
      exact List.pairwise_map.2 (ih.imp fun hne heq => hne (List.cons.inj heq).2)
    · refine (hvalues e List.mem_cons_self).imp fun hvw x hx y hy heq => ?_
      obtain ⟨_, -, rfl⟩ := List.mem_map.1 hx
      obtain ⟨_, -, rfl⟩ := List.mem_map.1 hy
      have := Value.beq_iff.2 (Prod.mk.inj (List.cons.inj heq).1).2
      rw [hvw] at this
      cases this
    · -- only one of the two binds the first variable
      obtain ⟨v, -, hlonger⟩ := List.mem_flatMap.1 hlonger
      obtain ⟨others, -, rfl⟩ := List.mem_map.1 hlonger
      have hmem : (e.1, v.canonical) ∈ State.canonicalEntries pairs := by
        rw [heq]
        exact List.mem_cons_self
      obtain ⟨pair, hpair, hkey⟩ := List.mem_map.1 hmem
      have hlt := lt_of_mem_bindings hhead hpairs pair hpair
      have hself : compare e.1 e.1 = .eq := Std.ReflCmp.compare_self
      rw [(Prod.mk.inj hkey).1, hself] at hlt
      cases hlt

end Ascending

/-- The states that can be owed are listed once each. -/
theorem states_distinct (goal : State) (actions : ActionSet) :
    (ofGoal goal actions).states.Pairwise fun a b => (a == b) = false := by
  have hvalues : ∀ e ∈ (ofGoal goal actions).entries, e.2.Pairwise fun a b => (a == b) = false := by
    intro e he
    have := values_distinct goal actions e.1
    rwa [values, SortedMap.mem_entries_iff.1 he] at this
  refine List.pairwise_map.2 ((bindings_distinct (ofGoal goal actions).ascending hvalues).imp_of_mem ?_)
  intro xs ys hx hy hne
  rw [← Bool.not_eq_true, State.ofPairs_beq_iff (ascending_of_mem_bindings (ofGoal goal actions).ascending hx)
    (ascending_of_mem_bindings (ofGoal goal actions).ascending hy)]
  exact hne

theorem ascending_of_mem_states {r : Requirements} {t : State} (h : t ∈ r.states) :
    ∃ pairs ∈ bindings r.entries, State.ofPairs pairs = t ∧
      pairs.Pairwise fun a b => compare a.1 b.1 = .lt := by
  obtain ⟨pairs, hpairs, rfl⟩ := List.mem_map.1 h
  exact ⟨pairs, hpairs, rfl, ascending_of_mem_bindings r.ascending hpairs⟩

theorem owable_of_mem_states (h : s ∈ (ofGoal goal actions).states) : Owable goal actions s := by
  obtain ⟨pairs, hpairs, rfl, hascending⟩ := ascending_of_mem_states h
  refine owable_iff_content.2 fun key c hc => ?_
  rw [State.content_ofPairs hascending, Option.map_eq_some_iff] at hc
  obtain ⟨v, hv, rfl⟩ := hc
  obtain ⟨e, he, rfl, hmem⟩ := exists_entry_of_mem_bindings hpairs _ (SortedMap.mem_of_lookup hv)
  have hvalues : (ofGoal goal actions).values e.1 = e.2 := by
    rw [values, SortedMap.mem_entries_iff.1 he]
    rfl
  obtain ⟨w, hw, hvw⟩ := contains_values_ofGoal.1
    (hvalues ▸ List.contains_iff_exists_mem_beq.2 ⟨v, hmem, BEq.rfl⟩)
  exact ⟨w, hw, (Value.beq_iff.1 hvw).symm⟩

/-- What a state that can be owed holds is listed among the values required of the variable. -/
theorem exists_listed_of_owable (h : Owable goal actions s) {key : String} {c : Value}
    (hc : s.content key = some c) :
    ∃ values, (ofGoal goal actions).get? key = some values ∧ ∃ v ∈ values, v.canonical = c := by
  obtain ⟨w, hw, rfl⟩ := owable_iff_content.1 h key c hc
  have hcontains := contains_values_ofGoal.2 ⟨w, hw, BEq.rfl⟩
  unfold values at hcontains
  cases hget : (ofGoal goal actions).get? key with
  | none => rw [hget] at hcontains; cases hcontains
  | some values =>
    rw [hget] at hcontains
    obtain ⟨v, hv, heq⟩ := List.contains_iff_exists_mem_beq.1 hcontains
    exact ⟨values, rfl, v, hv, (Value.beq_iff.1 heq).symm⟩

theorem contains_states_of_owable (h : Owable goal actions s) :
    (ofGoal goal actions).states.contains s = true := by
  have hlisted : ∀ e ∈ (ofGoal goal actions).entries, ∀ c, s.content e.1 = some c →
      ∃ v ∈ e.2, v.canonical = c := by
    intro e he c hc
    obtain ⟨values, hget, hv⟩ := exists_listed_of_owable h hc
    rw [SortedMap.mem_entries_iff.1 he] at hget
    cases hget
    exact hv
  obtain ⟨pairs, hpairs, hlookup⟩ := exists_binding (ofGoal goal actions).ascending hlisted
  refine List.contains_iff_exists_mem_beq.2
    ⟨_, List.mem_map_of_mem hpairs, State.beq_iff_content.2 (funext fun key => ?_)⟩
  rw [State.content_ofPairs (ascending_of_mem_bindings (ofGoal goal actions).ascending hpairs)]
  cases hget : (ofGoal goal actions).get? key with
  | some values => exact (hlookup (key, values) (SortedMap.mem_entries_iff.2 hget)).symm
  | none =>
    -- nothing is required of the variable: neither side has it
    cases hc : s.content key with
    | some c =>
      obtain ⟨values, hsome, -⟩ := exists_listed_of_owable h hc
      rw [hget] at hsome
      cases hsome
    | none =>
      cases hv : SortedMap.lookup key pairs with
      | none => rfl
      | some v =>
        obtain ⟨e, he, rfl, -⟩ := exists_entry_of_mem_bindings hpairs _ (SortedMap.mem_of_lookup hv)
        rw [SortedMap.mem_entries_iff.1 he] at hget
        cases hget

/-- The states listed are those that can be owed. -/
theorem mem_states_iff : (ofGoal goal actions).states.contains s = true ↔ Owable goal actions s := by
  constructor
  · intro h
    obtain ⟨t, ht, heq⟩ := List.contains_iff_exists_mem_beq.1 h
    exact (owable_of_mem_states ht).congr (BEq.symm heq)
  · exact contains_states_of_owable

end Requirements

end GoalRegression
