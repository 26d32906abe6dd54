/-
The gap between states respects equality: equal states have the same gap to another state (`gapTo_congr_left`), and
a state has the same gap to any two that hold equal values under its names (`gapTo_congr_right`). No gap has a sign
(`isNegative_gapTo`).
-/
import GoalRegression.Proofs.State.Content
import GoalRegression.Proofs.Value.Distance

namespace GoalRegression

namespace State

theorem gapTo_congr_left {s s' : State} (h : (s == s') = true) (other : State) : s.gapTo other = s'.gapTo other := by
  have hentries : canonicalEntries s.toList = canonicalEntries s'.toList := beq_iff_canonicalEntries_toList.1 h
  unfold gapTo
  generalize s.toList = xs at hentries
  generalize s'.toList = ys at hentries
  generalize (0 : Binary32) = sum
  induction xs generalizing ys sum with
  | nil =>
    cases ys with
    | nil => rfl
    | cons y ys => cases hentries
  | cons x xs ih =>
    cases ys with
    | nil => cases hentries
    | cons y ys =>
      obtain ⟨hxy, hrest⟩ := List.cons.inj hentries
      obtain ⟨hkey, hvalue⟩ := Prod.mk.inj hxy
      rw [List.foldl_cons, List.foldl_cons, ih ys hrest, hkey]
      cases other.value? y.1 with
      | none => rfl
      | some v =>
        show List.foldl _ (sum + x.2.distance v) ys = List.foldl _ (sum + y.2.distance v) ys
        rw [Value.distance_congr_left (Value.beq_iff.2 hvalue)]

/-- Equal states are equally far, one way, from another state. -/
theorem distanceTo_congr_left {s s' : State} (h : (s == s') = true) (other : State) :
    s.distanceTo other true = s'.distanceTo other true := by
  unfold distanceTo
  rw [if_pos rfl, if_pos rfl, gapTo_congr_left h]

/-- A state is equally far, one way, from two that hold equal values, or none, under its names. -/
theorem gapTo_congr_right (s : State) {other other' : State}
    (h : ∀ e ∈ s.toList, (other.value? e.1 == other'.value? e.1) = true) : s.gapTo other = s.gapTo other' := by
  unfold gapTo
  generalize (0 : Binary32) = sum
  generalize s.toList = entries at h
  induction entries generalizing sum with
  | nil => rfl
  | cons e rest ih =>
    have he := h e List.mem_cons_self
    rw [List.foldl_cons, List.foldl_cons, ih _ fun e' he' => h e' (List.mem_cons_of_mem _ he')]
    cases hv : other.value? e.1 with
    | none =>
      cases hv' : other'.value? e.1 with
      | none => rfl
      | some w => rw [hv, hv'] at he; cases he
    | some v =>
      cases hv' : other'.value? e.1 with
      | none => rw [hv, hv'] at he; cases he
      | some w =>
        rw [hv, hv'] at he
        show List.foldl _ (sum + e.2.distance v) rest = List.foldl _ (sum + e.2.distance w) rest
        rw [Value.distance_congr_right e.2 he]

theorem isNegative_gapTo (s other : State) : (s.gapTo other).isNegative = false := by
  unfold gapTo
  have hzero : (0 : Binary32).isNegative = false := rfl
  generalize (0 : Binary32) = sum at hzero
  induction s.toList generalizing sum with
  | nil => exact hzero
  | cons e rest ih =>
    refine ih _ (Binary.isNegative_add hzero ?_)
    split
    · exact Value.isNegative_distance ..
    · exact Binary.isNegative_one

theorem distanceTo_nonneg (s other : State) : 0 ≤ (s.distanceTo other true).toRat := by
  unfold distanceTo
  rw [if_pos rfl]
  exact Binary.toRat_nonneg_iff.2 (Binary.rank_nonneg (isNegative_gapTo s other))

end State

end GoalRegression
