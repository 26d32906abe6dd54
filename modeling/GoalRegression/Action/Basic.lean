/-
Actions: what has to hold before, what holds after, and what the action costs from a state. An action
built directly may have any cost; `Action.create` accepts only costs that are finite and not negative.
-/
import GoalRegression.Error
import GoalRegression.State.Basic

namespace GoalRegression

structure Action where
  /-- Names are for people; several actions may share one. -/
  name : String
  /-- What has to hold in the state the action starts from. -/
  preconditions : State := .empty
  effects : State := .empty
  /-- Whether the action takes part in planning. -/
  valid : Bool := true
  /-- The cost from every state, unless there is a rule. -/
  baseCost : Binary32
  /-- The cost as a function of the state the action starts from. -/
  costRule : Option (State → Binary32) := none

namespace Action

/-- An action without preconditions and effects, of a cost that is finite and not negative. -/
def create (name : String) (cost : Binary32) : Except PlanningError Action :=
  if !cost.isFinite || cost.lt 0 then .error (.invalidActionCost cost)
  else .ok { name, baseCost := cost }

def withPrecondition (a : Action) (key : String) (value : Value) : Action :=
  { a with preconditions := a.preconditions.set key value }

def withEffect (a : Action) (key : String) (value : Value) : Action :=
  { a with effects := a.effects.set key value }

def withCostRule (a : Action) (rule : State → Binary32) : Action := { a with costRule := some rule }

def withValid (a : Action) (valid : Bool) : Action := { a with valid }

def cost (a : Action) (s : State) : Binary32 :=
  match a.costRule with
  | some rule => rule s
  | none => a.baseCost

def hasUnsatisfiedPreconditions (a : Action) (s : State) : Bool := !a.preconditions.isSubstateOf s

def display (a : Action) : String := s!"Action: {a.name}"

end Action

end GoalRegression
