/-
The record of a search: every node and every transition it looked at.
-/
import GoalRegression.Search.Node

namespace GoalRegression

/-- The node `source` was expanded into the node `target` through `action`. -/
structure TreeEdge where
  source : NodeId
  target : NodeId
  action : Action

structure SearchTree where
  nodes : Array Node
  edges : Array TreeEdge

namespace SearchTree

def empty : SearchTree := ⟨#[], #[]⟩

instance : Inhabited SearchTree := ⟨empty⟩

def node? (tree : SearchTree) (id : NodeId) : Option Node := tree.nodes[id.index]?

def root? (tree : SearchTree) : Option Node := tree.nodes[0]?

/-- The transitions out of a node, in the order in which they were recorded. -/
def outgoing (tree : SearchTree) (id : NodeId) : List TreeEdge :=
  tree.edges.toList.filter fun edge => edge.source == id

end SearchTree

end GoalRegression
