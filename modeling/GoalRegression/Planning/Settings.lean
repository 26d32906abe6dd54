/-
The choice of a planner and its flags.
-/
import GoalRegression.Error

namespace GoalRegression

inductive PlannerType where
  | regressive
deriving DecidableEq, Inhabited

namespace PlannerType

def name : PlannerType → String
  | regressive => "regressive"

/-- The strategy of that name. The case of ASCII letters is ignored, and nothing else. -/
def ofText (text : String) : Except PlanningError PlannerType :=
  if text.toLower = "regressive" then .ok .regressive else .error (.unknownPlannerType text)

end PlannerType

structure PlannerSettings where
  plannerType : PlannerType := .regressive
  /-- Whether the first target generated ends the search. The plan may then not be the cheapest. -/
  earlyExit : Bool := true
  createDebugGraph : Bool := false
deriving DecidableEq

instance : Inhabited PlannerSettings := ⟨{}⟩

end GoalRegression
