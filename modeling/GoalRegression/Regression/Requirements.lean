/-
The values that a goal and the preconditions of actions require of each variable. Every state owed during
a search from the goal binds only these variables, each to one of its values, so their number bounds the
search.
-/
import GoalRegression.Action.ActionSet

namespace GoalRegression

/-- For every variable the values required of it, each once. -/
abbrev Requirements := SortedMap String (List Value)

namespace Requirements

def add (r : Requirements) (pair : String × Value) : Requirements :=
  r.update pair.1 fun known =>
    let known := known.getD []
    if known.contains pair.2 then known else pair.2 :: known

/-- What the goal and the preconditions of all actions require. -/
def ofGoal (goal : State) (actions : ActionSet) : Requirements :=
  (goal.toList ++ actions.actions.toList.flatMap (·.preconditions.toList)).foldl add .empty

/-- How many states bind some of the variables, each to one of the values required of it. -/
def stateCount (r : Requirements) : Nat := r.entries.foldr (fun e n => (e.2.length + 1) * n) 1

/-- A bound on the rounds of a search: every state is expanded once into a child an action at most, every
child and the root leave the frontier once, and one more round finds the frontier empty. -/
def rounds (r : Requirements) (actions : ActionSet) : Nat := actions.size * r.stateCount + 2

end Requirements

end GoalRegression
