/-
The record of a search. It holds one transition for each node but the root, in the order of the nodes: from
the parent, through the action that led there, to the node (`Arena.Records`). So the record follows from the
nodes, and where one search extends another, nodes, record and paths of the shorter one are a beginning of
those of the longer one (`Search.Extends.take_nodes`, `take_edges`, `pathActions_eq`).
-/
import GoalRegression.Proofs.Search.Lineage
import GoalRegression.Proofs.Search.Outcome

namespace GoalRegression

namespace Arena

/-- The transition that led to a node. -/
def edgeTo? (arena : Arena) (id : NodeId) : Option TreeEdge := do
  let node ← arena.get? id
  let source ← node.parent
  let action ← node.action
  return ⟨source, id, action⟩

/-- The edges are the transitions to all nodes but the root, in the order of the nodes. -/
structure Records (arena : Arena) (edges : Array TreeEdge) : Prop where
  size_eq : edges.size + 1 = arena.size
  edge : ∀ i e, edges[i]? = some e → arena.edgeTo? ⟨i + 1⟩ = some e

variable {arena : Arena} {edges : Array TreeEdge}

theorem edgeTo?_congr {arena' : Arena} {id : NodeId} (h : arena.get? id = arena'.get? id) :
    arena.edgeTo? id = arena'.edgeTo? id := by
  unfold edgeTo?
  rw [h]

/-- The transitions lead to one node after the other. -/
theorem Records.target_eq (h : arena.Records edges) {i : Nat} {edge : TreeEdge} (hedge : edges[i]? = some edge) :
    edge.target = ⟨i + 1⟩ := by
  have hto := h.edge i edge hedge
  simp only [edgeTo?, Option.bind_eq_bind, Option.bind_eq_some_iff] at hto
  obtain ⟨node, -, source, -, action, -, hpure⟩ := hto
  cases hpure
  rfl

theorem Records.push (h : arena.Records edges) (id : NodeId) (node : Node) (step : Step) :
    (arena.push (.child id node step)).Records (edges.push ⟨id, arena.nextId, step.action⟩) := by
  have hsize := h.size_eq
  refine ⟨by simp [hsize], fun i e he => ?_⟩
  rw [Array.getElem?_push] at he
  split at he
  · next hi =>
    -- the new node
    cases he
    have hnew : (⟨i + 1⟩ : NodeId) = arena.nextId := congrArg NodeId.mk (by omega)
    have hget : (arena.push (.child id node step)).get? arena.nextId = some (.child id node step) :=
      (get?_push ..).trans (if_pos rfl)
    rw [hnew, edgeTo?, hget]
    rfl
  · have hlt := (Array.getElem?_eq_some_iff.1 he).1
    have hold := get?_push arena (.child id node step) ⟨i + 1⟩
    rw [if_neg (by simp only; omega)] at hold
    rw [edgeTo?_congr hold]
    exact h.edge i e he

end Arena

namespace Search

/-- The search records its transitions, if it does record any. -/
def Recorded (s : Search) : Prop := ∀ edges, s.edges = some edges → s.arena.Records edges

variable {p : Problem} {root : State} {earlyExit : Bool} {s s' : Search}

/-! ## Along a run -/

theorem Recorded.add (h : s.Recorded) (id : NodeId) (node : Node) (step : Step) : (s.add id node step).Recorded := by
  intro edges hedges
  obtain ⟨old, hold, rfl⟩ := Option.map_eq_some_iff.1 hedges
  exact (h old hold).push id node step

theorem Recorded.addSteps (h : s.Recorded) {id : NodeId} {node : Node} {steps : List Step} :
    (s.addSteps id node steps).Recorded :=
  addSteps_invariant (I := Recorded) (fun _ step ht => ht.add id node step) h

theorem Recorded.withFrontier (h : s.Recorded) (frontier : PriorityQueue NodeId) :
    (s.withFrontier frontier).Recorded := h

theorem Recorded.visit (h : s.Recorded) (id : NodeId) (state : State) (children : Nat) :
    (s.visit id state children).Recorded := h

theorem Round.recorded {ending : Option Ending} (h : Round p earlyExit s s' ending) (hs : s.Recorded) :
    s'.Recorded := by
  rcases h.effect with rfl | ⟨id, frontier, -, rfl | ⟨node, steps, -, -, -, -, rfl⟩⟩
  · exact hs
  · exact hs
  · exact ((hs.withFrontier frontier).visit _ _ _).addSteps

theorem isSome_edges_addSteps {id : NodeId} {node : Node} {steps : List Step} :
    (s.addSteps id node steps).edges.isSome = s.edges.isSome :=
  addSteps_invariant (I := fun t => t.edges.isSome = s.edges.isSome) (fun _ _ ht => Option.isSome_map.trans ht) rfl

theorem Round.isSome_edges {ending : Option Ending} (h : Round p earlyExit s s' ending) :
    s'.edges.isSome = s.edges.isSome := by
  rcases h.effect with rfl | ⟨_, _, -, rfl | ⟨_, _, -, -, -, -, rfl⟩⟩
  · rfl
  · rfl
  · exact isSome_edges_addSteps

theorem recorded_start (root : State) (record : Bool) : (start root record).Recorded := by
  intro edges hedges
  cases record with
  | false => cases hedges
  | true =>
    cases hedges
    exact ⟨rfl, fun i e he => by simp at he⟩

theorem recorded_run (p : Problem) (root : State) (earlyExit record : Bool) (rounds : Nat) :
    (run p earlyExit rounds (start root record)).search.Recorded :=
  run_invariant (fun _ _ _ hs hround => hround.recorded hs) rounds (recorded_start root record)

/-- A search has a record exactly if it was asked for one. -/
theorem isSome_edges_run (p : Problem) (root : State) (earlyExit record : Bool) (rounds : Nat) :
    (run p earlyExit rounds (start root record)).search.edges.isSome = record := by
  refine run_invariant (I := fun s => s.edges.isSome = record)
    (fun _ _ _ hs hround => hround.isSome_edges.trans hs) rounds ?_
  cases record <;> rfl

/-! ## Searches that extend one another -/

theorem Extends.size_le (h : s.Extends s') : s.arena.size ≤ s'.arena.size := by
  by_contra hlt
  obtain ⟨node, hnode⟩ := Arena.exists_get?_of_lt (Nat.lt_of_not_le hlt)
  exact Nat.lt_irrefl _ (Arena.lt_size_of_get? (h _ _ hnode))

/-- The nodes of the search that is extended are a beginning of those of the other. -/
theorem Extends.take_nodes (h : s.Extends s') :
    s.arena.nodes.toList = s'.arena.nodes.toList.take s.arena.size := by
  refine List.ext_getElem? fun i => ?_
  rw [List.getElem?_take]
  split
  · next hi =>
    obtain ⟨node, hnode⟩ := Arena.exists_get?_of_lt hi
    rw [Array.getElem?_toList, Array.getElem?_toList]
    exact hnode.trans (h _ _ hnode).symm
  · next hi =>
    rw [List.getElem?_eq_none_iff, Array.length_toList]
    exact Nat.le_of_not_lt hi

/-- What the search that is extended records is a beginning of what the other records. -/
theorem Extends.take_edges (h : s.Extends s') {edges edges' : Array TreeEdge} (hedges : s.arena.Records edges)
    (hedges' : s'.arena.Records edges') : edges.toList = edges'.toList.take edges.size := by
  refine List.ext_getElem? fun i => ?_
  rw [List.getElem?_take, Array.getElem?_toList, Array.getElem?_toList]
  split
  · next hi =>
    have hi' : i < edges'.size := by
      have := h.size_le
      have := hedges.size_eq
      have := hedges'.size_eq
      omega
    -- both record the transition to the node after the root and these
    have he := hedges.edge i _ (Array.getElem?_eq_getElem hi)
    have he' := hedges'.edge i _ (Array.getElem?_eq_getElem hi')
    have hnode : s.arena.get? ⟨i + 1⟩ = s'.arena.get? ⟨i + 1⟩ := by
      cases hget : s.arena.get? ⟨i + 1⟩ with
      | none => rw [Arena.edgeTo?, hget] at he; cases he
      | some node => exact (h _ _ hget).symm
    rw [Arena.edgeTo?_congr hnode, he'] at he
    rw [Array.getElem?_eq_getElem hi, Array.getElem?_eq_getElem hi', Option.some.inj he]
  · next hi => exact Array.getElem?_eq_none (Nat.le_of_not_lt hi)

/-- The way from a node up to the root stays the same. -/
theorem Extends.pathActions_eq (h : s.Extends s') (hvalid : s.Valid p root) (hvalid' : s'.Valid p root)
    {id : NodeId} {node : Node} (hnode : s.arena.get? id = some node) :
    s'.arena.pathActions id = s.arena.pathActions id := by
  refine hvalid.path_induction (P := fun id _ path => s'.arena.pathActions id = path) hvalid'.pathActions_root ?_
    hnode
  intro id parentId parent step _ hchild _ ih
  rw [Arena.pathActions_child hvalid'.ordered (h _ _ hchild), ih]

end Search

end GoalRegression
