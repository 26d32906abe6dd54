/-
The record that planning leaves is faithful, however the search ends (`searchTree_faithful`). It begins with the
goal. Each further node has its own transition, which comes from an earlier node, through an action of the set, by
regression of what is owed there (`TreeEdge.Joins`). The transitions out of one node follow one another, and no
state is expanded twice. A plan is what is met on the way from some node that the start provides up to the goal
(`SearchTree.Climbs`).
-/
import GoalRegression.Proofs.Planning.EarlyExit
import GoalRegression.Proofs.Planning.Irredundance
import GoalRegression.Proofs.Search.Siblings

namespace GoalRegression

/-- How the transition and the two nodes that it joins go together: the action is charged in the parent's state,
its effects are taken out of that state and its preconditions put in, and the node is estimated by its distance
from the start. -/
structure TreeEdge.Joins (edge : TreeEdge) (start : State) (parent node : Node) : Prop where
  parent_eq : node.parent = some edge.source
  action_eq : node.action = some edge.action
  level_eq : node.level = parent.level + 1
  runningCost_eq : node.runningCost = parent.runningCost + edge.action.cost parent.state
  regress?_eq : parent.state.regress? edge.action = some node.state
  state_eq : node.state = (parent.state.without edge.action.effects).apply edge.action.preconditions
  estimate_eq : node.estimate = node.state.distanceTo start true

/-- The actions are those of the nodes from this one up to the root, along the parents and nearest first. -/
inductive SearchTree.Climbs (tree : SearchTree) : NodeId → List Action → Prop
  | root : tree.Climbs ⟨0⟩ []
  | step {id node parent action path} (hnode : tree.node? id = some node) (hparent : node.parent = some parent)
    (haction : node.action = some action) (h : tree.Climbs parent path) : tree.Climbs id (action :: path)

variable {start goal : State} {actions : ActionSet} {s : Search} {edges : Array TreeEdge}

namespace Search

theorem Valid.joins (h : s.Valid (actions.problem start) goal) (hedges : s.arena.Records edges) {i : Nat}
    {edge : TreeEdge} (hedge : edges[i]? = some edge) :
    ∃ parent node, s.arena.get? edge.source = some parent ∧ s.arena.get? ⟨i + 1⟩ = some node ∧
      edge.Joins start parent node := by
  obtain ⟨-, parent, step, hparent, hstep, haction, hnode⟩ := h.exists_step_of_edge hedges hedge
  obtain ⟨-, -, hregress, hestimate⟩ := ActionSet.mem_regressions_iff.1 hstep
  refine ⟨parent, _, hparent, hnode, ?_⟩
  constructor
  · rfl
  · exact congrArg some haction.symm
  · rfl
  · rw [haction]; rfl
  · rw [haction]; exact hregress
  · rw [haction]; exact (State.regress?_eq_some_iff.1 hregress).2.2.symm
  · exact hestimate

/-- The path of a node is what is met on the way up from it. -/
theorem Valid.climbs {p : Problem} (h : s.Valid p goal) (edges : Array TreeEdge) {id : NodeId} {node : Node}
    (hnode : s.arena.get? id = some node) :
    SearchTree.Climbs ⟨s.arena.nodes, edges⟩ id (s.arena.pathActions id) := by
  refine h.path_induction (P := fun id _ path => SearchTree.Climbs ⟨s.arena.nodes, edges⟩ id path) .root ?_ hnode
  intro id parentId parent step _ hchild _ ih
  exact .step hchild rfl rfl ih

end Search

namespace RegressivePlanner

/-- The record of planning, with a plan or without: node zero is the goal. There is one transition less than nodes,
and each leads to the next node from an earlier one, which it joins as regression does. The transitions out of one
node are contiguous, and nodes with transitions out of them are of unequal states. If there is a plan, it is the way
up to the goal from a node whose state the start provides. -/
theorem searchTree_faithful (earlyExit : Bool) (start goal : State) (actions : ActionSet) :
    ∃ tree, (plan ⟨earlyExit, true⟩ start goal actions).searchTree = some tree ∧
      tree.node? ⟨0⟩ = some
        { state := goal, action := none, parent := none, level := 0, runningCost := 0, estimate := 0 } ∧
      tree.edges.size + 1 = tree.nodes.size ∧
      (∀ (i : Nat) edge, tree.edges[i]? = some edge → edge.target = ⟨i + 1⟩ ∧ edge.source.index < i + 1 ∧
        edge.action ∈ actions.actions ∧ ∃ parent node, tree.node? edge.source = some parent ∧
          tree.node? edge.target = some node ∧ edge.Joins start parent node) ∧
      (∀ (i j k : Nat) first mid last, tree.edges[i]? = some first → tree.edges[j]? = some mid →
        tree.edges[k]? = some last → i ≤ j → j ≤ k → first.source = last.source → mid.source = first.source) ∧
      (∀ edge ∈ tree.edges, ∀ edge' ∈ tree.edges, edge.source ≠ edge'.source → ∀ node node',
        tree.node? edge.source = some node → tree.node? edge'.source = some node' →
        (node.state == node'.state) = false) ∧
      ∀ path, (plan ⟨earlyExit, true⟩ start goal actions).plan = some path →
        ∃ id node, tree.node? id = some node ∧ start.isSuperstateOf node.state = true ∧ tree.Climbs id path := by
  obtain ⟨edges, hedges, hrecords⟩ := exists_edges_search ⟨earlyExit, true⟩ start goal actions rfl
  have hvalid := valid_search ⟨earlyExit, true⟩ start goal actions
  have hparents := parentsExpanded_search ⟨earlyExit, true⟩ start goal actions
  have hsiblings : (search ⟨earlyExit, true⟩ start goal actions).search.Siblings :=
    Search.siblings_run (actions.problem start) goal earlyExit true _
  refine ⟨_, Outcome.tree?_of_edges hedges, hvalid.root_node, hrecords.size_eq, ?_, ?_, ?_, ?_⟩
  · intro i edge hedge
    obtain ⟨hlt, parent, step, -, hstep, haction, -⟩ := hvalid.exists_step_of_edge hrecords hedge
    obtain ⟨parent, node, hparent, hnode, hjoins⟩ := hvalid.joins hrecords hedge
    have htarget := hrecords.target_eq hedge
    refine ⟨htarget, hlt, ?_, parent, node, hparent, htarget ▸ hnode, hjoins⟩
    rw [haction]
    exact (ActionSet.mem_regressions_iff.1 hstep).1
  · intro i j k first mid last hfirst hmid hlast hij hjk heq
    exact hsiblings.source_eq hvalid hrecords hfirst hmid hlast hij hjk heq
  · intro edge hedge edge' hedge' hne node node' hnode hnode'
    exact hparents.beq_eq_false_of_sources hvalid hrecords hedge hedge' hne hnode hnode'
  · intro path hpath
    obtain ⟨id, node, -, hnode, hmet, rfl⟩ := exists_node_of_plan hpath
    exact ⟨id, node, hnode, hmet, hvalid.climbs edges hnode⟩

end RegressivePlanner

end GoalRegression
