/-
Plans can be carried out. An owed state that a search reaches is provided by exactly the states from which
the actions on its path can be run to the goal (`Problem.Descends.isSuperstateOf_iff`), since every step is a
weakest precondition. A plan is the path of a node that the start provides, so running it from the start
meets no unsatisfied precondition and ends where the goal holds (`plan_achieves_goal`).
-/
import GoalRegression.Planning.Planner
import GoalRegression.Proofs.Planning.Execution
import GoalRegression.Proofs.Search.Lineage
import GoalRegression.Proofs.Search.Outcome

namespace GoalRegression

variable {start goal : State} {actions : ActionSet}

/-! ## Descents are plans -/

theorem Problem.Descends.isSuperstateOf_iff {owed : State} {plan : List Action}
    (h : (actions.problem start).Descends goal owed plan) (s : State) :
    s.isSuperstateOf owed = true ↔ Achieves s goal plan := by
  induction h generalizing s with
  | root => exact achieves_nil_iff.symm
  | step _ hstep ih =>
    obtain ⟨-, -, hregress, -⟩ := ActionSet.mem_regressions_iff.1 hstep
    rw [State.isSuperstateOf_regress?_iff hregress, ih, achieves_cons_iff]

theorem Problem.Descends.mem_actions {owed : State} {plan : List Action}
    (h : (actions.problem start).Descends goal owed plan) : ∀ a ∈ plan, a ∈ actions.actions := by
  induction h with
  | root => exact fun _ h => absurd h List.not_mem_nil
  | step _ hstep ih =>
    intro a ha
    rcases List.mem_cons.1 ha with rfl | ha
    · exact (ActionSet.mem_regressions_iff.1 hstep).1
    · exact ih a ha

/-! ## Plans -/

theorem PlanningResult.plan_eq_some_getD {r : PlanningResult} (h : r.isSuccess = true) :
    r.plan = some (r.plan.getD []) := by
  obtain ⟨found, hfound⟩ := Option.isSome_iff_exists.1 h
  rw [hfound]
  rfl

namespace RegressivePlanner

/-- A plan is the path of a node of the search whose state the start provides. -/
theorem exists_node_of_plan {planner : RegressivePlanner} {plan : List Action}
    (h : (planner.plan start goal actions).plan = some plan) :
    ∃ id node, (planner.search start goal actions).ending.winner? = some id ∧
      (planner.search start goal actions).search.arena.get? id = some node ∧
      start.isSuperstateOf node.state = true ∧
      plan = (planner.search start goal actions).search.arena.pathActions id := by
  obtain ⟨id, hid, rfl⟩ := Option.map_eq_some_iff.1 h
  obtain ⟨node, hnode, htarget⟩ := Search.isTarget_of_winner? hid
  exact ⟨id, node, hid, hnode, htarget, rfl⟩

/-- Running a plan from the start never meets an action with an unsatisfied precondition, and the state it
ends in provides the goal. -/
theorem plan_achieves_goal (planner : RegressivePlanner) (start goal : State) (actions : ActionSet)
    (plan : List Action) (h : (planner.plan start goal actions).plan = some plan) :
    runnable start plan = true ∧ (PlanningResult.finalState start plan).isSuperstateOf goal = true := by
  obtain ⟨id, node, -, hnode, htarget, rfl⟩ := exists_node_of_plan h
  have hdescends := (Search.valid_run (actions.problem start) goal planner.earlyExit
    planner.createDebugGraph _).descends hnode
  exact (hdescends.isSuperstateOf_iff start).1 htarget

end RegressivePlanner

/-! ## A kitchen with odd values and odd costs -/

namespace Kitchen

/-- Needs a stove at the negative zero, which an absent one is; its cost is not a number. -/
def cook : Action where
  name := "cook"
  preconditions := .ofPairs [("stove", .float (.zero true))]
  effects := .ofPairs [("food", .int 1)]
  baseCost := 1
  costRule := some fun _ => .nan

/-- Needs food and a scale that shows no number, and uses the food up; its cost is negative. -/
def eat : Action where
  name := "eat"
  preconditions := .ofPairs [("food", .int 1), ("scale", .float .nan)]
  effects := .ofPairs [("fed", .bool true), ("food", .int 0)]
  baseCost := .infinity true

def world : State := .ofPairs [("scale", .float .nan)]

def wanted : State := .ofPairs [("asleep", .bool false), ("fed", .bool true), ("scale", .float .nan)]

def catalog : ActionSet := .ofCatalog [eat, cook]

/-- The plan that the planner finds without early exit. -/
def plan : List Action := ((RegressivePlanner.plan ⟨false, true⟩ world wanted catalog).plan).getD []

theorem plan_eq : (RegressivePlanner.plan ⟨false, true⟩ world wanted catalog).plan = some plan :=
  PlanningResult.plan_eq_some_getD (by decide +kernel)

theorem plan_achieves_goal_kitchen :
    plan.map (·.name) = ["cook", "eat"] ∧
      (RegressivePlanner.plan ⟨false, true⟩ world wanted catalog).plan = some plan ∧
      runnable world plan = true ∧ (PlanningResult.finalState world plan).isSuperstateOf wanted = true :=
  ⟨by decide +kernel, plan_eq, RegressivePlanner.plan_achieves_goal ⟨false, true⟩ world wanted catalog plan plan_eq⟩

end Kitchen

end GoalRegression
