/-
What the distance between states counts. The names that both states have are the same seen from either
(`sharedGaps_comm`), so they are no more than either has (`sharedWith_le_size`), and the others are those that the one
state has without the other (`size_without`). The distance both ways is the number of all these and the distances of
the values under shared names (`distanceTo_counts_gaps`), which is the same from either side.
-/
import GoalRegression.Proofs.Binary.Extended
import GoalRegression.Proofs.State.Distance

namespace GoalRegression.State

/-! ## Shared names -/

/-- The distances of the values under the names that both states have. -/
def sharedGaps (s other : State) : List (String × Binary32) :=
  s.toList.filterMap fun e => (other.value? e.1).map fun value => (e.1, e.2.distance value)

theorem lookup_filterMap (other : State) (key : String) (entries : List (String × Value)) :
    SortedMap.lookup key (entries.filterMap fun e => (other.value? e.1).map fun value => (e.1, e.2.distance value)) =
      (SortedMap.lookup key entries).bind fun v => (other.value? key).map v.distance := by
  induction entries with
  | nil => rfl
  | cons e rest ih =>
    by_cases hkey : compare key e.1 = .eq
    · obtain rfl := Std.LawfulEqCmp.eq_of_compare hkey
      rw [SortedMap.lookup, if_pos hkey]
      cases hvalue : other.value? e.1 with
      | none =>
        -- the name is not shared, so it is not among the others either
        rw [List.filterMap_cons_none (by rw [hvalue]; rfl), ih, hvalue]
        cases SortedMap.lookup e.1 rest <;> rfl
      | some value =>
        rw [List.filterMap_cons_some (by rw [hvalue]; rfl), SortedMap.lookup, if_pos hkey]
        rfl
    · rw [SortedMap.lookup, if_neg hkey, ← ih]
      cases hvalue : other.value? e.1 with
      | none => rw [List.filterMap_cons_none (by rw [hvalue]; rfl)]
      | some value => rw [List.filterMap_cons_some (by rw [hvalue]; rfl), SortedMap.lookup, if_neg hkey]

theorem ascending_sharedGaps (s other : State) :
    (s.sharedGaps other).Pairwise fun a b => compare a.1 b.1 = .lt := by
  refine s.ascending_toList.filterMap _ fun a a' hlt b hb b' hb' => ?_
  obtain ⟨_, -, rfl⟩ := Option.map_eq_some_iff.1 hb
  obtain ⟨_, -, rfl⟩ := Option.map_eq_some_iff.1 hb'
  exact hlt

/-- The two states share the same names at the same distances, from whichever side they are gone through. -/
theorem sharedGaps_comm (s other : State) : s.sharedGaps other = other.sharedGaps s := by
  refine SortedMap.eq_of_lookup_eq (ascending_sharedGaps s other) (ascending_sharedGaps other s) fun key => ?_
  unfold sharedGaps
  rw [lookup_filterMap, lookup_filterMap, lookup_toList, lookup_toList]
  cases s.value? key with
  | none => cases other.value? key <;> rfl
  | some v =>
    cases other.value? key with
    | none => rfl
    | some w => exact congrArg some (Value.distance_comm v w)

theorem sharedWith_eq_length (s other : State) : s.sharedWith other = (s.sharedGaps other).length := by
  unfold sharedWith sharedGaps
  rw [List.length_filterMap_eq_countP]
  refine List.countP_congr fun e _ => ?_
  rw [Option.isSome_map]
  rfl

theorem sharedWith_comm (s other : State) : s.sharedWith other = other.sharedWith s := by
  rw [sharedWith_eq_length, sharedWith_eq_length, sharedGaps_comm]

/-- No more names are found in the other state than it has. -/
theorem sharedWith_le_size (s other : State) : s.sharedWith other ≤ other.size := by
  rw [sharedWith_comm]
  exact List.countP_le_length

/-- The names of the other state that are not found are those it has without this one. -/
theorem size_without (s other : State) : (other.without s).size = other.size - s.sharedWith other := by
  have hcount := List.length_eq_countP_add_countP (fun e : String × Value => s.contains e.1) (l := other.toList)
  have hwithout : (other.without s).size = other.toList.countP fun e => decide ¬(s.contains e.1 = true) := by
    show (other.toList.filter _).length = _
    rw [← List.countP_eq_length_filter]
    refine List.countP_congr fun e _ => ?_
    simp
  rw [hwithout, sharedWith_comm]
  show _ = other.toList.length - other.toList.countP _
  omega

/-! ## The terms of the distance -/

/-- What the entries of `s` lack in `other`, one after the other. -/
def gaps (s other : State) : List Binary32 :=
  s.toList.map fun e => match other.value? e.1 with
    | some value => e.2.distance value
    | none => 1

/-- The distance with its additions made on what the numbers stand for. -/
def exactDistanceTo (s other : State) (oneWay : Bool) : Extended :=
  if oneWay then ((s.gaps other).map Binary.exact).sum
  else ((s.gaps other).map Binary.exact).sum + .rational (other.size - s.sharedWith other : Nat)

/-- What the distance both ways adds up: the gaps, and the number of the names that are not found. -/
def distanceTerms (s other : State) : List Binary32 :=
  s.gaps other ++ [.ofInt (other.size - s.sharedWith other : Nat)]

/-- None of the additions rounds that make up the distance both ways, nor does the number of names that are added. -/
structure AddsExactly (s other : State) : Prop where
  sums : Binary.SumsExactly 0 (s.distanceTerms other)
  count : (Binary.ofInt (other.size - s.sharedWith other : Nat) : Binary32).exact =
    .rational (other.size - s.sharedWith other : Nat)

instance (s other : State) : Decidable (s.AddsExactly other) :=
  decidable_of_iff (_ ∧ _) ⟨fun h => ⟨h.1, h.2⟩, fun h => ⟨h.1, h.2⟩⟩

theorem distanceTo_eq_foldl (s other : State) :
    s.distanceTo other false = (s.distanceTerms other).foldl (· + ·) 0 := by
  unfold distanceTo gapTo distanceTerms gaps
  rw [if_neg Bool.false_ne_true, List.foldl_append, List.foldl_map]
  rfl

theorem exact_one : (1 : Binary32).exact = .rational 1 := by decide +kernel

/-- What the entries lack amounts to one for each name that is not shared, and to the distances under the others. -/
theorem sum_gaps (s other : State) : ((s.gaps other).map Binary.exact).sum =
    .rational (s.without other).size + ((s.sharedGaps other).map fun e => e.2.exact).sum := by
  show _ = Extended.rational ((s.toList.filter fun e => !other.contains e.1).length : ℕ) + _
  unfold gaps sharedGaps
  induction s.toList with
  | nil => exact (add_zero _).symm
  | cons e rest ih =>
    have hcontains : other.contains e.1 = (other.value? e.1).isSome := rfl
    rw [List.map_cons, List.map_cons, List.sum_cons, ih]
    cases hvalue : other.value? e.1 with
    | none =>
      rw [List.filterMap_cons_none (by rw [hvalue]; rfl), List.filter_cons_of_pos (by rw [hcontains, hvalue]; rfl),
        exact_one, ← add_assoc, Extended.rational_add_rational, List.length_cons, Nat.cast_succ, add_comm (1 : ℚ)]
    | some value =>
      rw [List.filterMap_cons_some (by rw [hvalue]; rfl),
        List.filter_cons_of_neg (by rw [hcontains, hvalue]; simp), List.map_cons, List.sum_cons]
      exact add_left_comm _ _ _

theorem AddsExactly.exact_distanceTo {s other : State} (h : s.AddsExactly other) :
    (s.distanceTo other false).exact = s.exactDistanceTo other false := by
  have hzero : (0 : Binary32).exact = 0 := Binary.exact_zero false
  rw [distanceTo_eq_foldl, Binary.exact_foldl_add h.sums, hzero, zero_add, distanceTerms, List.map_append,
    List.sum_append, List.map_singleton, List.sum_singleton, h.count]
  rfl

theorem AddsExactly.distanceTo_ne_negativeZero {s other : State} (h : s.AddsExactly other) :
    s.distanceTo other false ≠ .zero true := by
  rw [distanceTo_eq_foldl]
  exact Binary.foldl_add_ne_negativeZero h.sums fun heq => by cases heq

theorem exactDistanceTo_eq (s other : State) : s.exactDistanceTo other false =
    .rational ((s.without other).size + (other.without s).size) +
      ((s.sharedGaps other).map fun e => e.2.exact).sum := by
  unfold exactDistanceTo
  rw [if_neg Bool.false_ne_true, sum_gaps, ← size_without, add_right_comm, Extended.rational_add_rational]

/-- No more names are found in the other state than it has, so taking their number from its size counts the others. The
distance both ways is the distance one way and one for each name that only the other state has. With exact additions it
is the number of the names that only one of the states has and the distances of the values under the names that both
have, and the same from either side. The distance itself is all this if no addition rounds. -/
theorem distanceTo_counts_gaps (s other : State) :
    s.sharedWith other ≤ other.size ∧
      s.distanceTo other false = s.distanceTo other true + .ofInt (other.without s).size ∧
      s.exactDistanceTo other false = .rational ((s.without other).size + (other.without s).size) +
        ((s.sharedGaps other).map fun e => e.2.exact).sum ∧
      s.exactDistanceTo other false = other.exactDistanceTo s false ∧
      (s.AddsExactly other → (s.distanceTo other false).exact = s.exactDistanceTo other false ∧
        (other.AddsExactly s → s.distanceTo other false = other.distanceTo s false)) := by
  have hcomm : s.exactDistanceTo other false = other.exactDistanceTo s false := by
    rw [exactDistanceTo_eq, exactDistanceTo_eq, sharedGaps_comm, add_comm ((s.without other).size : ℚ)]
  refine ⟨sharedWith_le_size s other, ?_, exactDistanceTo_eq s other, hcomm,
    fun h => ⟨h.exact_distanceTo, fun h' => ?_⟩⟩
  · rw [size_without]
    rfl
  · refine Binary.eq_of_exact_eq ?_ h.distanceTo_ne_negativeZero h'.distanceTo_ne_negativeZero
    rw [h.exact_distanceTo, h'.exact_distanceTo, hcomm]

end GoalRegression.State

/-! ## Two purses -/

namespace GoalRegression.Purse

def mine : State := .ofPairs [("gold", .int 10), ("ring", .bool true)]

def yours : State := .ofPairs [("copper", .int 3), ("gold", .int 5), ("silver", .int 5)]

/-- Three things are in one purse only, and of the gold one has half as much as the other. -/
theorem distanceTo_counts_gaps_purses :
    mine.AddsExactly yours ∧ yours.AddsExactly mine ∧ (mine.distanceTo yours false).exact = .rational (7 / 2) ∧
      mine.distanceTo yours false = yours.distanceTo mine false ∧
      mine.distanceTo yours false = mine.distanceTo yours true + .ofInt 2 := by
  have hmine : mine.AddsExactly yours := by decide +kernel
  have hyours : yours.AddsExactly mine := by decide +kernel
  obtain ⟨-, honeWay, hsum, -, hexact⟩ := State.distanceTo_counts_gaps mine yours
  obtain ⟨hvalue, hsame⟩ := hexact hmine
  have hcount : (yours.without mine).size = 2 := by decide +kernel
  rw [hcount] at honeWay
  exact ⟨hmine, hyours, (hvalue.trans hsum).trans (by decide +kernel), hsame hyours, honeWay⟩

end GoalRegression.Purse
