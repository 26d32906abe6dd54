/-
What building a set of actions and planning report along the way, as data, and the lines they are
written as.
-/
import GoalRegression.Inspection.Forms

namespace GoalRegression

inductive Severity where
  | warning
  | debugging
  | tracing
deriving DecidableEq

def Severity.name : Severity → String
  | warning => "WARN"
  | debugging => "DEBUG"
  | tracing => "TRACE"

inductive Event where
  | plannerCreated (type : PlannerType)
  | invalidActionSkipped (name : String)
  | nameRepeated (name : String)
  | actionWithoutEffects (name : String)
  | planningStarted (start goal : State) (actions : Nat)
  | nodeExpanded (node : Node) (children : Nat)
  | targetFound (level nodes : Nat)
  | earlyExit (nodes : Nat)
  | searchExhausted (nodes : Nat)
  | planFound (actions : Nat)
  | planMissing (goal : State)

namespace Event

def severity : Event → Severity
  | nameRepeated _ | actionWithoutEffects _ => .warning
  | nodeExpanded .. => .tracing
  | _ => .debugging

def message : Event → String
  | plannerCreated type => s!"Creating {type.name} planner"
  | invalidActionSkipped name => s!"Skipping invalid action {name}"
  | nameRepeated name => s!"Several actions are named {Text.quoted name}"
  | actionWithoutEffects name => s!"Action {name} has no effects and cannot be selected"
  | planningStarted start goal actions =>
    s!"Regressive planning from {start.display} towards {goal.display} with {actions} actions"
  | nodeExpanded node children => s!"Expanded {node.display} into {children} children"
  | targetFound level nodes => s!"Plan found at level {level} after {nodes} nodes"
  | earlyExit nodes => s!"Early exit after {nodes} nodes"
  | searchExhausted nodes => s!"Search exhausted after {nodes} nodes without reaching the target"
  | planFound actions => s!"Found plan with {actions} actions"
  | planMissing goal => s!"No plan reaches {goal.display}"

def line (e : Event) : String := s!"{e.severity.name} {e.message}"

end Event

/-! ## Building a set of actions -/

/-- What is reported of a valid action, given the names of the valid actions before it. -/
def Action.remarks (a : Action) (earlier : List String) : List Event :=
  (if earlier.contains a.name then [.nameRepeated a.name] else []) ++
    if a.effects.isEmpty then [.actionWithoutEffects a.name] else []

namespace ActionSet

/-- What is reported of the actions of a catalog, given the names of the valid actions before them. -/
def remarksAfter : List String → List Action → List Event
  | _, [] => []
  | earlier, a :: rest =>
    if a.valid then a.remarks earlier ++ remarksAfter (a.name :: earlier) rest
    else .invalidActionSkipped a.name :: remarksAfter earlier rest

def remarks (catalog : List Action) : List Event := remarksAfter [] catalog

end ActionSet

/-! ## Planning -/

namespace Outcome

def endingRemarks (o : Outcome) : List Event :=
  match o.ending with
  | .found id => [.targetFound ((o.search.arena.get? id).elim 0 (·.level)) o.search.arena.size]
  | .reached _ => [.earlyExit o.search.arena.size]
  | .exhausted => [.searchExhausted o.search.arena.size]
  | .unfinished => []

/-- What is reported of the search: every expansion, and the end. -/
def remarks (o : Outcome) : List Event :=
  (o.search.expansions.toList.filterMap fun e =>
    (o.search.arena.get? e.1).map fun node => .nodeExpanded node e.2) ++ o.endingRemarks

end Outcome

namespace RegressivePlanner

/-- What planning reports, given its search. -/
def remarks (start goal : State) (actions : ActionSet) (o : Outcome) : List Event :=
  .planningStarted start goal actions.size :: o.remarks ++
    match o.actions? with
    | some plan => [.planFound plan.length]
    | none => [.planMissing goal]

end RegressivePlanner

end GoalRegression
