/-
Best-first search over states. The problem says which states are targets and how to go on from a state;
the search owns the nodes, the frontier, the states already expanded and, if asked for, the record of all
transitions. A state is expanded at most once. With early exit the first target that is generated ends
the search, otherwise the first one that leaves the frontier.
-/
import GoalRegression.PriorityQueue.Basic
import GoalRegression.Search.Tree

namespace GoalRegression

structure Problem where
  isTarget : State → Bool
  steps : State → List Step

structure Search where
  arena : Arena
  frontier : PriorityQueue NodeId
  /-- The states expanded so far, latest first. -/
  visited : List State
  /-- The transitions so far, if they are recorded. -/
  edges : Option (Array TreeEdge)
  /-- The nodes expanded so far with the number of their children. -/
  expansions : Array (NodeId × Nat)

inductive Ending where
  /-- A target left the frontier. -/
  | found (id : NodeId)
  /-- A target was generated, and that was enough. -/
  | reached (id : NodeId)
  /-- Nothing was left in the frontier. -/
  | exhausted
  /-- The allotted number of rounds was used up. -/
  | unfinished
deriving DecidableEq

def Ending.winner? : Ending → Option NodeId
  | found id => some id
  | reached id => some id
  | exhausted => none
  | unfinished => none

structure Outcome where
  search : Search
  ending : Ending

namespace Search

def start (root : State) (record : Bool) : Search where
  arena := Arena.empty.push (.root root)
  frontier := PriorityQueue.empty.enqueue 0 Arena.empty.nextId
  visited := []
  edges := if record then some #[] else none
  expansions := #[]

/-- Adds the node that `step` leads to from the node `id`, and lets it wait at its total cost. -/
def add (s : Search) (id : NodeId) (node : Node) (step : Step) : Search :=
  let child := Node.child id node step
  { s with
    arena := s.arena.push child
    frontier := s.frontier.enqueue child.totalCost s.arena.nextId
    edges := s.edges.map (·.push ⟨id, s.arena.nextId, step.action⟩) }

/-- Adds the steps from the node `id` one after the other, up to the first that leads to a target if that
is to end the search. -/
def addAll (isTarget : State → Bool) (earlyExit : Bool) (id : NodeId) (node : Node) :
    Search → List Step → Search × Option NodeId
  | s, [] => (s, none)
  | s, step :: rest =>
    if earlyExit && isTarget step.state then (s.add id node step, some s.arena.nextId)
    else addAll isTarget earlyExit id node (s.add id node step) rest

/-- Notes that the node `id` with this state is expanded into a number of children. -/
def visit (s : Search) (id : NodeId) (state : State) (children : Nat) : Search :=
  { s with visited := state :: s.visited, expansions := s.expansions.push (id, children) }

/-- Serves the frontier until the search ends, at most `rounds` times. -/
def run (p : Problem) (earlyExit : Bool) : Nat → Search → Outcome
  | 0, s => ⟨s, .unfinished⟩
  | rounds + 1, s =>
    match s.frontier.pop? with
    | none => ⟨s, .exhausted⟩
    | some (id, frontier) =>
      let s := { s with frontier }
      match s.arena.get? id with
      | none => run p earlyExit rounds s
      | some node =>
        if s.visited.contains node.state then run p earlyExit rounds s
        else if p.isTarget node.state then ⟨s, .found id⟩
        else
          let steps := p.steps node.state
          match addAll p.isTarget earlyExit id node (s.visit id node.state steps.length) steps with
          | (s, some target) => ⟨s, .reached target⟩
          | (s, none) => run p earlyExit rounds s

end Search

namespace Outcome

/-- The actions from the target up to the root, nearest first. -/
def actions? (o : Outcome) : Option (List Action) := o.ending.winner?.map o.search.arena.pathActions

def tree? (o : Outcome) : Option SearchTree :=
  o.search.edges.map fun edges => ⟨o.search.arena.nodes, edges⟩

end Outcome

end GoalRegression
