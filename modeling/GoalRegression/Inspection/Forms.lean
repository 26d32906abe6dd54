/-
The inspection text of everything the library deals in.
-/
import GoalRegression.Inspection.Shapes
import GoalRegression.Planning.Planner

namespace GoalRegression

open Inspection

def Binary.inspect {f : Format} (x : Binary f) : String := Layout.inspection.render x

def Value.inspect : Value → String
  | bool b => wrap "Bool" (Inspection.bool b)
  | int i => wrap "Int" (toString i.toInt)
  | float x => wrap "Float" x.inspect
  | text s => wrap "Text" (Text.quoted s)

def State.inspect (s : State) : String :=
  Inspection.map (s.toList.map fun e => (Text.quoted e.1, e.2.inspect))

def Action.inspect (a : Action) : String :=
  fields "Action"
    [("name", Text.quoted a.name), ("cost", a.baseCost.inspect),
     ("dynamic_cost", Inspection.bool a.costRule.isSome), ("valid", Inspection.bool a.valid),
     ("preconditions", a.preconditions.inspect), ("effects", a.effects.inspect)]

def ActionId.inspect (id : ActionId) : String := wrap "ActionId" (toString id.index)

def Candidate.inspect (c : Candidate) : String :=
  fields "Candidate" [("id", c.id.inspect), ("value", c.value.inspect)]

/-- The index is shown in the order of the variables. -/
def ActionSet.inspect (set : ActionSet) : String :=
  fields "ActionSet"
    [("actions", list (set.actions.toList.map (·.inspect))),
     ("lookup", Inspection.map (set.index.entries.map fun e =>
       (Text.quoted e.1, list (e.2.map (·.inspect)))))]

/-- The queue, its items shown by `item`. -/
def PriorityQueue.inspect (item : α → String) (q : PriorityQueue α) : String :=
  fields "PriorityQueue"
    [("buckets", Inspection.map (q.buckets.entries.map fun e => (toString e.1, list (e.2.map item)))),
     ("factor", q.factor.inspect), ("len", toString q.size)]

def NodeId.inspect (id : NodeId) : String := wrap "NodeId" (toString id.index)

def Node.inspect (n : Node) : String :=
  fields "PlanNode"
    [("action", option (n.action.map fun a => Text.quoted a.name)), ("state", n.state.inspect),
     ("parent", option (n.parent.map (·.inspect))), ("level", toString n.level),
     ("running_cost", n.runningCost.inspect), ("estimate", n.estimate.inspect)]

def TreeEdge.inspect (edge : TreeEdge) : String :=
  fields "TreeEdge"
    [("source", edge.source.inspect), ("target", edge.target.inspect), ("action", edge.action.inspect)]

def SearchTree.inspect (tree : SearchTree) : String :=
  fields "SearchTree"
    [("nodes", list (tree.nodes.toList.map (·.inspect))),
     ("edges", list (tree.edges.toList.map (·.inspect)))]

def PlanningResult.inspect (r : PlanningResult) : String :=
  fields "PlanningResult"
    [("plan", option (r.plan.map fun plan => list (plan.map (·.inspect)))),
     ("search_tree", option (r.searchTree.map (·.inspect)))]

def PlannerType.inspect : PlannerType → String
  | regressive => "Regressive"

def PlannerSettings.inspect (s : PlannerSettings) : String :=
  fields "PlannerSettings"
    [("planner_type", s.plannerType.inspect), ("early_exit", Inspection.bool s.earlyExit),
     ("create_debug_graph", Inspection.bool s.createDebugGraph)]

def RegressivePlanner.inspect (p : RegressivePlanner) : String :=
  fields "RegressivePlanner"
    [("early_exit", Inspection.bool p.earlyExit),
     ("create_debug_graph", Inspection.bool p.createDebugGraph)]

def SinkFault.inspect : SinkFault → String
  | refused text => fields "Custom" [("kind", "Other"), ("error", Text.quoted text)]
  | stalled => fields "Error" [("kind", "WriteZero"), ("message", Text.quoted stalled.message)]

def PlanningError.inspect : PlanningError → String
  | invalidActionCost cost => wrap "InvalidActionCost" cost.inspect
  | unknownPlannerType text => wrap "UnknownPlannerType" (Text.quoted text)
  | emptyQueue => "EmptyQueue"
  | io fault => wrap "Io" fault.inspect

end GoalRegression
