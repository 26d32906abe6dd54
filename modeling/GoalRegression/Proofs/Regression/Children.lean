/-
The children of an owed state: there is one for each position of an action that sets some owed variable and
through which the state regresses (`mem_regressions_iff`), so never more than there are actions
(`length_regressions_le`), and equal states have equal children (`regressions_congr`). A child is the weakest
precondition of its action for what was owed (`isSuperstateOf_child_iff`).
-/
import GoalRegression.Proofs.Action.Index
import GoalRegression.Proofs.Regression.Weakest
import GoalRegression.Proofs.State.Distance
import Mathlib.Data.List.Nodup
import Mathlib.Data.List.Perm.Subperm

namespace GoalRegression

theorem nodup_eraseDups {α : Type u} [BEq α] [LawfulBEq α] : ∀ l : List α, l.eraseDups.Nodup
  | [] => List.nodup_nil
  | a :: l => by
    rw [List.eraseDups_cons, List.nodup_cons, List.mem_eraseDups]
    exact ⟨by simp, nodup_eraseDups _⟩
termination_by l => l.length
decreasing_by exact Nat.lt_succ_of_le (List.length_filter_le ..)

namespace ActionSet

variable {actions : ActionSet} {start owed : State}

/-! ## Discharging actions -/

theorem mem_discharging_iff {id : ActionId} :
    id ∈ actions.discharging owed ↔ ∃ a key v, actions.action? id = some a ∧
      a.effects.content key = some v ∧ owed.content key = some v := by
  unfold discharging
  simp only [List.mem_eraseDups, List.mem_flatMap, List.mem_map, List.mem_filter, mem_lookup_iff]
  constructor
  · rintro ⟨⟨key, w⟩, hw, c, ⟨⟨a, ha, hv⟩, hvw⟩, rfl⟩
    refine ⟨a, key, w.canonical, ha, ?_, State.content_of_value? (State.mem_toList_iff.1 hw)⟩
    rw [State.content_of_value? hv, Value.beq_iff.1 hvw]
  · rintro ⟨a, key, v, ha, hv, hw⟩
    obtain ⟨x, hx, rfl⟩ := State.content_eq_some_iff.1 hv
    obtain ⟨w, hw, hwx⟩ := State.content_eq_some_iff.1 hw
    exact ⟨(key, w), State.mem_toList_iff.2 hw, ⟨id, x⟩, ⟨⟨a, ha, hx⟩, Value.beq_iff.2 hwx.symm⟩, rfl⟩

theorem nodup_discharging : (actions.discharging owed).Nodup := nodup_eraseDups _

theorem length_discharging_le : (actions.discharging owed).length ≤ actions.size := by
  have hinj : Function.Injective ActionId.index := by
    rintro ⟨i⟩ ⟨j⟩ h
    exact congrArg ActionId.mk h
  have hsub : ((actions.discharging owed).map ActionId.index).Subperm (List.range actions.size) := by
    refine List.subperm_of_subset (nodup_discharging.map hinj) fun i hi => ?_
    obtain ⟨id, hid, rfl⟩ := List.mem_map.1 hi
    obtain ⟨a, _, _, ha, _⟩ := mem_discharging_iff.1 hid
    exact List.mem_range.2 (index_lt_of_action? ha)
  have := hsub.length_le
  rwa [List.length_map, List.length_range] at this

/-! ## Children -/

/-- The children of an owed state are its regressions through the actions that set some owed variable. -/
theorem mem_regressions_iff {step : Step} :
    step ∈ actions.regressions start owed ↔ step.action ∈ actions.actions ∧ step.action.touches owed = true ∧
      owed.regress? step.action = some step.state ∧ step.estimate = step.state.distanceTo start true := by
  unfold regressions
  simp only [List.mem_filterMap, mem_discharging_iff, Option.bind_eq_bind, Option.bind_eq_some_iff,
    Option.pure_def, Option.some.injEq]
  constructor
  · rintro ⟨id, ⟨a, key, v, ha, hv, hw⟩, a', ha', next, hnext, rfl⟩
    obtain rfl : a = a' := Option.some.inj (ha.symm.trans ha')
    exact ⟨mem_actions_iff.2 ⟨id, ha⟩, Action.touches_iff.2 ⟨key, v, v, hv, hw⟩, hnext, rfl⟩
  · obtain ⟨a, next, estimate⟩ := step
    rintro ⟨hmem, htouch, hnext, hestimate⟩
    dsimp only at hmem htouch hnext hestimate
    subst hestimate
    obtain ⟨id, ha⟩ := mem_actions_iff.1 hmem
    obtain ⟨key, v, w, hv, hw⟩ := Action.touches_iff.1 htouch
    -- a variable that is set and owed holds one value in both, since the state regresses
    obtain rfl : v = w := State.effects_agree_of_regress? hnext hv hw
    exact ⟨id, ⟨a, key, v, ha, hv, hw⟩, a, ha, next, hnext, rfl⟩

/-- A state has at most one child for each action. -/
theorem length_regressions_le : (actions.regressions start owed).length ≤ actions.size :=
  Nat.le_trans (List.length_filterMap_le _ _) length_discharging_le

/-- Equal states have children through the same actions, in equal states at the same estimate. -/
theorem regressions_congr {owed' : State} (heq : (owed == owed') = true) {step : Step}
    (h : step ∈ actions.regressions start owed) :
    ∃ step' ∈ actions.regressions start owed', step'.action = step.action ∧
      (step'.state == step.state) = true ∧ step'.estimate = step.estimate := by
  obtain ⟨hmem, htouch, hnext, hestimate⟩ := mem_regressions_iff.1 h
  obtain ⟨next', hnext', hbeq⟩ := State.regress?_congr heq hnext
  refine ⟨⟨step.action, next', next'.distanceTo start true⟩, mem_regressions_iff.2 ⟨hmem, ?_, hnext', rfl⟩,
    rfl, BEq.symm hbeq, ?_⟩
  · rw [← (Action.Alike.refl _).touches_eq heq, htouch]
  · rw [hestimate, State.distanceTo_congr_left hbeq]

/-- A state provides a child exactly when it fulfills all preconditions of the action and the action's effects turn
it into a state that provides what was owed. -/
theorem isSuperstateOf_child_iff (actions : ActionSet) (start owed : State) (step : Step)
    (h : step ∈ actions.regressions start owed) (s : State) :
    s.isSuperstateOf step.state = true ↔
      (∀ key value, step.action.preconditions.value? key = some value → s.fulfills key value = true) ∧
        (s.apply step.action.effects).isSuperstateOf owed = true := by
  obtain ⟨-, -, hregress, -⟩ := mem_regressions_iff.1 h
  rw [State.isSuperstateOf_regress?_iff hregress, Action.hasUnsatisfiedPreconditions_eq_false_iff,
    State.isSuperstateOf_iff_fulfills]

end ActionSet

/-! ## A bakery -/

namespace Bakery

/-- Needs a cold oven, at the negative zero, and that there is no bread, and makes bread. -/
def bake : Action where
  name := "bake"
  preconditions := .ofPairs [("bread", .int 0), ("oven", .float (.zero true))]
  effects := .ofPairs [("bread", .int 1)]
  baseCost := 1

def catalog : ActionSet := .ofCatalog [bake]

/-- Bread, an oven at the positive zero, and a scale that shows no number. -/
def owed : State := .ofPairs [("bread", .int 1), ("oven", .float (.zero false)), ("scale", .float .nan)]

def world : State := .ofPairs [("scale", .float .nan)]

def beforeBaking : State := (owed.without bake.effects).apply bake.preconditions

def baking : Step := ⟨bake, beforeBaking, beforeBaking.distanceTo world true⟩

/-- The world lacks bread and an oven, and that will do. With bread it would not. -/
theorem isSuperstateOf_child_iff_baking :
    baking ∈ catalog.regressions world owed ∧
      (world.isSuperstateOf baking.state = true ↔
        (∀ key value, baking.action.preconditions.value? key = some value → world.fulfills key value = true) ∧
          (world.apply baking.action.effects).isSuperstateOf owed = true) ∧
      world.isSuperstateOf baking.state = true ∧
      (world.set "bread" (.int 1)).isSuperstateOf baking.state = false := by
  have hregress : owed.regress? bake = some beforeBaking :=
    State.regress?_eq_some_iff.2 ⟨by decide +kernel, by decide +kernel, rfl⟩
  have hstep : baking ∈ catalog.regressions world owed :=
    ActionSet.mem_regressions_iff.2
      ⟨ActionSet.mem_actions_iff.2 ⟨⟨0⟩, rfl⟩, by decide +kernel, hregress, rfl⟩
  exact ⟨hstep, ActionSet.isSuperstateOf_child_iff catalog world owed baking hstep world, by decide +kernel,
    by decide +kernel⟩

end Bakery

end GoalRegression
