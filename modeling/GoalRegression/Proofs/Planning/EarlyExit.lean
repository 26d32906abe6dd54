/-
Planning with early exit, next to planning without it. If the start provides the state of no node, both make the
same tree and find no plan. Otherwise the tree with early exit is the other one up to the first node whose state
the start provides, and the plan is the path of that node (`searchTree_earlyExit`).
-/
import GoalRegression.Proofs.Planning.Termination
import GoalRegression.Proofs.Search.EarlyExit

namespace GoalRegression

namespace SearchTree

/-- The node at position `k` is the first one whose state the start provides. -/
structure FirstMet (tree : SearchTree) (start : State) (k : Nat) : Prop where
  met : ∃ node, tree.nodes[k]? = some node ∧ start.isSuperstateOf node.state = true
  unmet : ∀ i node, i < k → tree.nodes[i]? = some node → start.isSuperstateOf node.state = false

/-- The nodes up to position `k`, and as many transitions as lead to them. -/
def upTo (tree : SearchTree) (k : Nat) : SearchTree := ⟨tree.nodes.take (k + 1), tree.edges.take k⟩

end SearchTree

variable {start goal : State} {actions : ActionSet} {o : Outcome} {s : Search} {k : Nat}

theorem Outcome.tree?_of_edges {edges : Array TreeEdge} (h : o.search.edges = some edges) :
    o.tree? = some ⟨o.search.arena.nodes, edges⟩ := by
  rw [tree?, h]
  rfl

theorem Outcome.StopsAt.firstMet (h : o.StopsAt (actions.problem start) k) (hextends : o.search.Extends s)
    (edges : Array TreeEdge) : SearchTree.FirstMet ⟨s.arena.nodes, edges⟩ start k := by
  have hsize := h.size_eq
  refine ⟨?_, fun i node hi hnode => ?_⟩
  · obtain ⟨node, hnode⟩ := Arena.exists_get?_of_lt (show k < o.search.arena.size by omega)
    exact ⟨node, hextends _ _ hnode, (h.target_iff _ _ hnode).2 rfl⟩
  · obtain ⟨old, hold⟩ := Arena.exists_get?_of_lt (show i < o.search.arena.size by omega)
    obtain rfl : old = node := Option.some.inj ((hextends _ _ hold).symm.trans hnode)
    rw [← Bool.not_eq_true]
    intro hmet
    have := congrArg NodeId.index ((h.target_iff _ _ hold).1 hmet)
    exact absurd this (Nat.ne_of_lt hi)

theorem Search.Extends.eq_upTo {s' : Search} (h : s.Extends s') (hsize : s.arena.size = k + 1)
    {edges edges' : Array TreeEdge} (hedges : s.arena.Records edges) (hedges' : s'.arena.Records edges') :
    (⟨s.arena.nodes, edges⟩ : SearchTree) = SearchTree.upTo ⟨s'.arena.nodes, edges'⟩ k := by
  have hnodes := h.take_nodes
  have htake := h.take_edges hedges hedges'
  have hcount : edges.size = k := by
    have := hedges.size_eq
    omega
  rw [hsize] at hnodes
  rw [hcount] at htake
  unfold SearchTree.upTo
  congr 1
  · exact Array.toList_inj.1 (by simpa using hnodes)
  · exact Array.toList_inj.1 (by simpa using htake)

namespace RegressivePlanner

/-- A search that is asked for its transitions has the record of them. -/
theorem exists_edges_search (planner : RegressivePlanner) (start goal : State) (actions : ActionSet)
    (h : planner.createDebugGraph = true) :
    ∃ edges, (planner.search start goal actions).search.edges = some edges ∧
      (planner.search start goal actions).search.arena.Records edges := by
  have hsome := Search.isSome_edges_run (actions.problem start) goal planner.earlyExit planner.createDebugGraph
    ((Requirements.ofGoal goal actions).rounds actions)
  obtain ⟨edges, hedges⟩ := Option.isSome_iff_exists.1 (hsome.trans h)
  exact ⟨edges, hedges, Search.recorded_run _ _ _ _ _ edges hedges⟩

theorem search_cases (start goal : State) (actions : ActionSet) (record : Bool) :
    search ⟨true, record⟩ start goal actions = search ⟨false, record⟩ start goal actions ∧
        (search ⟨false, record⟩ start goal actions).search.Unmet (actions.problem start) ∧
        (search ⟨false, record⟩ start goal actions).ending.winner? = none ∨
      ∃ k, (search ⟨true, record⟩ start goal actions).StopsAt (actions.problem start) k ∧
        (search ⟨true, record⟩ start goal actions).search.Extends
          (search ⟨false, record⟩ start goal actions).search :=
  Search.run_start_cases (actions.problem start) goal record
    (actions.size * (Requirements.ofGoal goal actions).stateCount + 1)

/-- With early exit, planning makes the tree it makes without, and finds no plan either, if the start provides
the state of none of its nodes. Otherwise it stops with the first node whose state the start provides. That is
the last one in its tree and the only one of the kind there, and the plan is the path of it. -/
theorem searchTree_earlyExit (start goal : State) (actions : ActionSet) :
    ∃ full early : SearchTree,
      (plan ⟨false, true⟩ start goal actions).searchTree = some full ∧
      (plan ⟨true, true⟩ start goal actions).searchTree = some early ∧
      full.edges.size + 1 = full.nodes.size ∧
      (∀ (i : Nat) edge, full.edges[i]? = some edge → edge.target = ⟨i + 1⟩) ∧
      ((∀ node ∈ full.nodes, start.isSuperstateOf node.state = false) ∧ early = full ∧
          (plan ⟨false, true⟩ start goal actions).plan = none ∧
          (plan ⟨true, true⟩ start goal actions).plan = none ∨
        ∃ k, full.FirstMet start k ∧ early = full.upTo k ∧
          (search ⟨true, true⟩ start goal actions).ending.winner? = some ⟨k⟩ ∧
          (plan ⟨true, true⟩ start goal actions).plan = some (Arena.pathActions ⟨full.nodes⟩ ⟨k⟩) ∧
          early.nodes.size = k + 1 ∧
          ∀ (i : Nat) node, early.nodes[i]? = some node → (start.isSuperstateOf node.state = true ↔ i = k)) := by
  obtain ⟨edges, hedges, hrecords⟩ := exists_edges_search ⟨false, true⟩ start goal actions rfl
  obtain ⟨edges', hedges', hrecords'⟩ := exists_edges_search ⟨true, true⟩ start goal actions rfl
  refine ⟨_, _, Outcome.tree?_of_edges hedges, Outcome.tree?_of_edges hedges', hrecords.size_eq,
    fun _ _ => hrecords.target_eq, ?_⟩
  rcases search_cases start goal actions true with ⟨heq, hunmet, hnone⟩ | ⟨k, hstops, hextends⟩
  · rw [heq, hedges] at hedges'
    cases hedges'
    have hnone' : (search ⟨true, true⟩ start goal actions).ending.winner? = none := by rw [heq, hnone]
    refine .inl ⟨fun node hnode => ?_, by rw [heq], congrArg (Option.map _) hnone, congrArg (Option.map _) hnone'⟩
    obtain ⟨i, hi, rfl⟩ := Array.mem_iff_getElem.1 hnode
    exact hunmet ⟨i⟩ _ (Array.getElem?_eq_getElem hi)
  · obtain ⟨node, hnode⟩ := Arena.exists_get?_of_lt (show k < _ by rw [hstops.size_eq]; exact Nat.lt_succ_self k)
    have hpath := hextends.pathActions_eq (valid_search ..) (valid_search ..) hnode
    refine .inr ⟨k, hstops.firstMet hextends edges, hextends.eq_upTo hstops.size_eq hrecords' hrecords, hstops.winner,
      ?_, hstops.size_eq, fun i other hother => ?_⟩
    · exact (congrArg (Option.map _) hstops.winner).trans (congrArg some hpath.symm)
    · rw [← NodeId.mk.injEq]
      exact hstops.target_iff ⟨i⟩ other hother

end RegressivePlanner

end GoalRegression
