/-
The regressive planner: it searches from the goal for a state that the start provides. The target lies
next to the start, so reading the actions from the target up to the root gives them in the order in
which they are run.
-/
import GoalRegression.Planning.Result
import GoalRegression.Planning.Settings
import GoalRegression.Regression.Requirements
import GoalRegression.Regression.Step

namespace GoalRegression

structure RegressivePlanner where
  earlyExit : Bool := true
  createDebugGraph : Bool := false
deriving DecidableEq

instance : Inhabited RegressivePlanner := ⟨{}⟩

namespace Outcome

def result (o : Outcome) : PlanningResult := ⟨o.actions?, o.tree?⟩

end Outcome

namespace RegressivePlanner

/-- The search from the goal. Its rounds suffice to finish. -/
def search (planner : RegressivePlanner) (start goal : State) (actions : ActionSet) : Outcome :=
  Search.run (actions.problem start) planner.earlyExit ((Requirements.ofGoal goal actions).rounds actions)
    (Search.start goal planner.createDebugGraph)

def plan (planner : RegressivePlanner) (start goal : State) (actions : ActionSet) : PlanningResult :=
  (planner.search start goal actions).result

/-- Plans with the valid actions of a catalog. -/
def planCatalog (planner : RegressivePlanner) (start goal : State) (catalog : List Action) :
    PlanningResult :=
  planner.plan start goal (.ofCatalog catalog)

end RegressivePlanner

def PlannerSettings.planner (settings : PlannerSettings) : RegressivePlanner :=
  match settings.plannerType with
  | .regressive => ⟨settings.earlyExit, settings.createDebugGraph⟩

end GoalRegression
