/-
The outcome of planning: the actions in the order in which they are run, and the record of the search if
one was asked for. An empty plan says that the goal holds already.
-/
import GoalRegression.Search.Tree

namespace GoalRegression

structure PlanningResult where
  plan : Option (List Action)
  searchTree : Option SearchTree

namespace PlanningResult

instance : Inhabited PlanningResult := ⟨⟨none, none⟩⟩

def isSuccess (r : PlanningResult) : Bool := r.plan.isSome

def names? (r : PlanningResult) : Option (List String) := r.plan.map (·.map (·.name))

/-- The state after running actions one after the other. -/
def finalState (start : State) (actions : List Action) : State :=
  actions.foldl (fun state action => state.apply action.effects) start

/-- The cost of running actions one after the other, added up in their order onto `sum`. -/
def costFrom (sum : Binary32) (state : State) : List Action → Binary32
  | [] => sum
  | action :: rest => costFrom (sum + action.cost state) (state.apply action.effects) rest

/-- The cost of running the plan from a state. -/
def totalCost? (r : PlanningResult) (start : State) : Option Binary32 := r.plan.map (costFrom 0 start)

end PlanningResult

end GoalRegression
