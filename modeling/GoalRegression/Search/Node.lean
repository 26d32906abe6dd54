/-
Search nodes and the arena that owns them. A node knows the state still owed, the action that led to it
and the node it came from; nodes are named by their position in the arena. Parents have smaller positions
than their children, which is what makes the walk to the root end.
-/
import GoalRegression.Action.Basic

namespace GoalRegression

/-- The position of a node in its arena. -/
structure NodeId where
  index : Nat
deriving DecidableEq, Inhabited

structure Node where
  state : State
  /-- The action that led here; the root has none. -/
  action : Option Action
  /-- The node this one came from; the root has none. -/
  parent : Option NodeId
  /-- How many actions lie between the root and this node. -/
  level : Nat
  runningCost : Binary32
  /-- What is expected to be missing still. -/
  estimate : Binary32

instance : Inhabited Node := ⟨⟨.empty, none, none, 0, 0, 0⟩⟩

/-- One way to go on from a state. -/
structure Step where
  action : Action
  state : State
  /-- What is expected to be missing from there. -/
  estimate : Binary32

namespace Node

def root (state : State) : Node := ⟨state, none, none, 0, 0, 0⟩

/-- The node that a step leads to from `parent`. The action is charged from the parent's state. -/
def child (parentId : NodeId) (parent : Node) (step : Step) : Node where
  state := step.state
  action := some step.action
  parent := some parentId
  level := parent.level + 1
  runningCost := parent.runningCost + step.action.cost parent.state
  estimate := step.estimate

/-- The cost so far and the estimate, which is the node's priority. -/
def totalCost (n : Node) : Binary32 := n.runningCost + n.estimate

def display (n : Node) : String :=
  let name := (n.action.map (·.name)).getD "<none>"
  s!"SelectedAction: {name}, RunningCost: {n.runningCost.display}, Level: {n.level}"

end Node

/-- All nodes of a search, in the order in which they were made. -/
structure Arena where
  nodes : Array Node

namespace Arena

def empty : Arena := ⟨#[]⟩

instance : Inhabited Arena := ⟨empty⟩

def size (arena : Arena) : Nat := arena.nodes.size

def nextId (arena : Arena) : NodeId := ⟨arena.size⟩

def push (arena : Arena) (node : Node) : Arena := ⟨arena.nodes.push node⟩

def get? (arena : Arena) (id : NodeId) : Option Node := arena.nodes[id.index]?

/-- The node `id` and the nodes above it, at most `steps` of them, nearest first. -/
def chainWithin (arena : Arena) : Nat → NodeId → List Node
  | 0, _ => []
  | steps + 1, id =>
    match arena.get? id with
    | none => []
    | some node =>
      node :: match node.parent with
        | some parent => arena.chainWithin steps parent
        | none => []

/-- The node `id` and all nodes above it up to the root, nearest first. Positions fall along the way, so
there are at most as many as the position of `id` says. -/
def chain (arena : Arena) (id : NodeId) : List Node := arena.chainWithin (id.index + 1) id

/-- The actions from the node `id` up to the root, nearest first. -/
def pathActions (arena : Arena) (id : NodeId) : List Action := (arena.chain id).filterMap (·.action)

end Arena

end GoalRegression
