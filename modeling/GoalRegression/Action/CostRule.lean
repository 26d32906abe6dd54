/-
Common rules for costs that depend on the state an action starts from.
-/
import GoalRegression.State.Basic

namespace GoalRegression.CostRule

/-- One cost where `key` holds `value`, another elsewhere. -/
def whenHolds (key : String) (value : Value) (cost otherwise : Binary32) (s : State) : Binary32 :=
  if s.value? key == some value then cost else otherwise

/-- A base cost and the same again for every variable of the state. -/
def perVariable (base per : Binary32) (s : State) : Binary32 := base + per * .ofInt s.size

/-- A base cost and a share of the integer under `key`. -/
def perInteger (key : String) (base per : Binary32) (s : State) : Binary32 :=
  base + per * .ofInt (s.readD key Value.int64? 0).toInt

/-- A base cost and a share of the number under `key`. -/
def perNumber (key : String) (base per : Binary32) (s : State) : Binary32 :=
  base + per * (s.readD key Value.double? 0).convert

end GoalRegression.CostRule
