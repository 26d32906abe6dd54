/-
The index of an action set in closed form: under a variable stand the actions that set it, in the order of
their positions and with the values they give it (`get?_ofActions`). So looking a variable up gives exactly
these actions (`mem_lookup_iff`).
-/
import GoalRegression.Proofs.State.Content
import GoalRegression.Action.ActionSet

namespace GoalRegression

namespace ActionIndex

/-- The candidates for a variable among actions whose positions count up from `first`. -/
def candidates (key : String) (first : Nat) (actions : List Action) : List Candidate :=
  (actions.zipIdx first).filterMap fun e => (e.1.effects.value? key).map (⟨⟨e.2⟩, ·⟩)

theorem mem_candidates_iff {key : String} {actions : List Action} {c : Candidate} :
    c ∈ candidates key 0 actions ↔
      ∃ a, actions[c.id.index]? = some a ∧ a.effects.value? key = some c.value := by
  unfold candidates
  rw [List.mem_filterMap]
  constructor
  · rintro ⟨⟨a, i⟩, hmem, hc⟩
    obtain ⟨v, hv, rfl⟩ := Option.map_eq_some_iff.1 hc
    exact ⟨a, List.mk_mem_zipIdx_iff_getElem?.1 hmem, hv⟩
  · rintro ⟨a, ha, hv⟩
    exact ⟨(a, c.id.index), List.mk_mem_zipIdx_iff_getElem?.2 ha, Option.map_eq_some_iff.2 ⟨c.value, hv, rfl⟩⟩

/-- An action put in front stands first under the variables it sets, and changes nothing elsewhere. -/
theorem get?_addEffects {effects : List (String × Value)}
    (he : effects.Pairwise fun a b => compare a.1 b.1 = .lt) (index : ActionIndex) (id : ActionId)
    (key : String) :
    (addEffects index id effects).get? key =
      match SortedMap.lookup key effects with
      | some v => some (⟨id, v⟩ :: (index.get? key).getD [])
      | none => index.get? key := by
  have hfold := SortedMap.get?_foldl_update he (fun v others => (⟨id, v⟩ : Candidate) :: others.getD []) index key
  refine hfold.trans ?_
  cases SortedMap.lookup key effects <;> rfl

/-- The index has a variable exactly if some action sets it, and then all candidates for it. -/
theorem get?_ofActions (key : String) (first : Nat) (actions : List Action) :
    (ofActions first actions).get? key =
      if candidates key first actions = [] then none else some (candidates key first actions) := by
  induction actions generalizing first with
  | nil => rfl
  | cons a rest ih =>
    have hcons : candidates key first (a :: rest) =
        match a.effects.value? key with
        | some v => ⟨⟨first⟩, v⟩ :: candidates key (first + 1) rest
        | none => candidates key (first + 1) rest := by
      unfold candidates
      rw [List.zipIdx_cons, List.filterMap_cons]
      cases a.effects.value? key <;> rfl
    show (addEffects (ofActions (first + 1) rest) ⟨first⟩ a.effects.toList).get? key = _
    rw [get?_addEffects a.effects.ascending_toList, hcons, State.lookup_toList, ih]
    cases a.effects.value? key with
    | none => rfl
    | some v =>
      by_cases hnil : candidates key (first + 1) rest = []
      · simp [hnil]
      · simp [hnil]

end ActionIndex

namespace ActionSet

theorem lookup_eq (set : ActionSet) (key : String) :
    (set.lookup key).getD [] = ActionIndex.candidates key 0 set.actions.toList := by
  unfold lookup
  rw [set.index_eq, ActionIndex.get?_ofActions]
  split
  · next h => rw [h]; rfl
  · rfl

/-- Looking a variable up gives the actions that set it, each with the value it gives. -/
theorem mem_lookup_iff {set : ActionSet} {key : String} {c : Candidate} :
    c ∈ (set.lookup key).getD [] ↔ ∃ a, set.action? c.id = some a ∧ a.effects.value? key = some c.value := by
  rw [lookup_eq, ActionIndex.mem_candidates_iff]
  simp only [action?, Array.getElem?_toList]

/-- The actions of a set stand at ascending positions. -/
theorem pairwise_zipIdx (set : ActionSet) : set.actions.toList.zipIdx.Pairwise fun x y => x.2 < y.2 := by
  rw [← List.pairwise_map (f := Prod.snd) (R := (· < ·)), List.zipIdx_map_snd]
  exact List.pairwise_lt_range'

theorem mem_actions_iff {set : ActionSet} {a : Action} : a ∈ set.actions ↔ ∃ id, set.action? id = some a := by
  rw [Array.mem_iff_getElem?]
  constructor
  · rintro ⟨i, hi⟩
    exact ⟨⟨i⟩, hi⟩
  · rintro ⟨id, hid⟩
    exact ⟨id.index, hid⟩

theorem index_lt_of_action? {set : ActionSet} {id : ActionId} {a : Action} (h : set.action? id = some a) :
    id.index < set.size := (Array.getElem?_eq_some_iff.1 h).1

end ActionSet

end GoalRegression
