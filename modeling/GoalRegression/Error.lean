/-
What can go wrong. That no plan exists is an answer and not an error.
-/
import GoalRegression.Decimal.Layout

namespace GoalRegression

inductive SinkFault where
  /-- The sink refused, with this text. -/
  | refused (text : String)
  /-- The sink took nothing without refusing. -/
  | stalled
deriving DecidableEq

def SinkFault.message : SinkFault → String
  | refused text => text
  | stalled => "failed to write whole buffer"

inductive PlanningError where
  /-- A fixed action cost is negative or not a finite number. -/
  | invalidActionCost (cost : Binary32)
  | unknownPlannerType (text : String)
  /-- Something was to be taken out of an empty queue. -/
  | emptyQueue
  | io (fault : SinkFault)
deriving DecidableEq

namespace PlanningError

def message : PlanningError → String
  | invalidActionCost cost => s!"Action cost must be a non-negative finite number, got {cost.display}"
  | unknownPlannerType text => s!"Unknown planner type: {text}"
  | emptyQueue => "Queue is empty"
  | io fault => s!"IO error: {fault.message}"

/-- The text of the fault that caused the error, if another fault did. -/
def source? : PlanningError → Option String
  | io fault => some fault.message
  | _ => none

end PlanningError

end GoalRegression
