/-
Regression of a state through an action: what has to hold before the action so that the state holds after
it. From it, the problem that planning searches: states are what is still owed, the goal is the first,
and a target is a state that the start already provides.
-/
import GoalRegression.Action.ActionSet
import GoalRegression.Search.Run

namespace GoalRegression

/-- What has to hold before `action` so that `owed` holds after it: what the action's effects leave over,
and its preconditions. Nothing if an effect contradicts what is owed, or a precondition contradicts what
is left over. -/
def State.regress? (owed : State) (action : Action) : Option State :=
  if action.effects.clashesWith owed then none
  else if action.preconditions.clashesWith (owed.without action.effects) then none
  else some ((owed.without action.effects).apply action.preconditions)

namespace ActionSet

/-- The actions that give some owed variable the owed value, each once: by the first such variable, then
in catalog order. -/
def discharging (actions : ActionSet) (owed : State) : List ActionId :=
  (owed.toList.flatMap fun e =>
    (((actions.lookup e.1).getD []).filter fun c => c.value == e.2).map (·.id)).eraseDups

/-- The regressions of an owed state through the actions that discharge a part of it. What is expected to
be missing still is the way from there to the start. -/
def regressions (actions : ActionSet) (start owed : State) : List Step :=
  (actions.discharging owed).filterMap fun id => do
    let action ← actions.action? id
    let state ← owed.regress? action
    return { action, state, estimate := state.distanceTo start true }

/-- The search from what is owed back to what the start provides. -/
def problem (actions : ActionSet) (start : State) : Problem where
  isTarget owed := start.isSuperstateOf owed
  steps owed := actions.regressions start owed

end ActionSet

end GoalRegression
