/-
The order of the nodes. The children of a node are made in one go, and a node of which there are children is not
expanded again, so between two children of one node stand only children of that node (`siblings_run`). In the
record, then, the transitions out of one node follow one another (`Siblings.source_eq`).
-/
import GoalRegression.Proofs.Search.Ancestors
import GoalRegression.Proofs.Search.Record

namespace GoalRegression.Search

variable {p : Problem} {root : State} {earlyExit : Bool} {s s' : Search}

/-- Between two children of one node stand only children of that node. -/
def Siblings (s : Search) : Prop :=
  ∀ i j k first mid last parent, s.arena.get? i = some first → s.arena.get? j = some mid →
    s.arena.get? k = some last → i.index ≤ j.index → j.index ≤ k.index → first.parent = some parent →
    last.parent = some parent → mid.parent = some parent

/-! ## Along a run -/

theorem Siblings.addSteps (h : s.Siblings) {id : NodeId} {node : Node} {steps : List Step}
    (hid : ∀ old n, s.arena.get? old = some n → n.parent ≠ some id) : (s.addSteps id node steps).Siblings := by
  intro i j k first mid last parent hfirst hmid hlast hij hjk hparent hparent'
  have hold : ∀ {old n}, (s.addSteps id node steps).arena.get? old = some n → old.index < s.arena.size →
      s.arena.get? old = some n := by
    intro old n hn hlt
    rcases get?_addSteps hn with hn | ⟨hge, -⟩
    · exact hn
    · omega
  rcases get?_addSteps hlast with hlast | ⟨hk, step, -, rfl, -⟩
  · -- no node after the last one counts
    have hlt := Arena.lt_size_of_get? hlast
    exact h i j k first mid last parent (hold hfirst (by omega)) (hold hmid (by omega)) hlast hij hjk hparent hparent'
  · -- the last one is new, and a node that had no children has only new ones
    cases hparent'
    rcases get?_addSteps hfirst with hfirst | ⟨hi, -⟩
    · exact absurd hparent (hid i first hfirst)
    · rcases get?_addSteps hmid with hmid | ⟨-, step', -, rfl, -⟩
      · have hlt := Arena.lt_size_of_get? hmid
        omega
      · rfl

/-- A node of a state that is not expanded has no children. -/
theorem ParentsExpanded.parent_ne (h : s.ParentsExpanded) (hvalid : s.Valid p root) {id : NodeId} {node : Node}
    (hnode : s.arena.get? id = some node) (hvisited : s.visited.contains node.state = false) {old : NodeId}
    {n : Node} (hn : s.arena.get? old = some n) : n.parent ≠ some id := by
  intro hparent
  have hmem := hvalid.mem_visited_of_expanded (h old n id hn hparent) hnode
  rw [List.contains_iff_exists_mem_beq.2 ⟨_, hmem, BEq.rfl⟩] at hvisited
  cases hvisited

theorem Round.siblings {ending : Option Ending} (h : Round p earlyExit s s' ending) (hs : s.Siblings)
    (hvalid : s.Valid p root) (hparents : s.ParentsExpanded) : s'.Siblings := by
  rcases h.effect with rfl | ⟨id, frontier, -, rfl | ⟨node, steps, hnode, hvisited, -, -, rfl⟩⟩
  · exact hs
  · exact hs
  · have hvisit : ((s.withFrontier frontier).visit id node.state (p.steps node.state).length).Siblings := hs
    exact hvisit.addSteps fun old n hn => hparents.parent_ne hvalid hnode hvisited hn

theorem siblings_run (p : Problem) (root : State) (earlyExit record : Bool) (rounds : Nat) :
    (run p earlyExit rounds (start root record)).search.Siblings := by
  refine (run_invariant (I := fun s => s.Siblings ∧ s.Valid p root ∧ s.ParentsExpanded) ?_ rounds ?_).1
  · rintro s s' ending ⟨hs, hvalid, hparents⟩ hround
    exact ⟨hround.siblings hs hvalid hparents, hvalid.round hround, hround.parentsExpanded hparents⟩
  · refine ⟨?_, valid_start p root record, ?_⟩
    · intro i j k first mid last parent hfirst _ _ _ _ hparent _
      obtain ⟨rfl, rfl⟩ := get?_start hfirst
      cases hparent
    · intro id node parent hnode hparent
      obtain ⟨rfl, rfl⟩ := get?_start hnode
      cases hparent

/-! ## In the record -/

/-- A transition leads from a node to the child that one of its steps makes. -/
theorem Valid.exists_step_of_edge (h : s.Valid p root) {edges : Array TreeEdge} (hedges : s.arena.Records edges)
    {i : Nat} {edge : TreeEdge} (hedge : edges[i]? = some edge) :
    edge.source.index < i + 1 ∧ ∃ parent step, s.arena.get? edge.source = some parent ∧
      step ∈ p.steps parent.state ∧ edge.action = step.action ∧
      s.arena.get? ⟨i + 1⟩ = some (.child edge.source parent step) := by
  have hto := hedges.edge i edge hedge
  simp only [Arena.edgeTo?, Option.bind_eq_bind, Option.bind_eq_some_iff] at hto
  obtain ⟨node, hnode, source, hsource, action, haction, hpure⟩ := hto
  obtain ⟨parentId, parent, step, hlt, hparent, hstep, rfl⟩ := h.child _ node hnode (Nat.succ_pos i)
  cases hsource
  cases haction
  cases hpure
  exact ⟨hlt, parent, step, hparent, hstep, rfl, hnode⟩

/-- The transitions out of one node follow one another. -/
theorem Siblings.source_eq (h : s.Siblings) (hvalid : s.Valid p root) {edges : Array TreeEdge}
    (hedges : s.arena.Records edges) {i j k : Nat} {first mid last : TreeEdge} (hfirst : edges[i]? = some first)
    (hmid : edges[j]? = some mid) (hlast : edges[k]? = some last) (hij : i ≤ j) (hjk : j ≤ k)
    (heq : first.source = last.source) : mid.source = first.source := by
  obtain ⟨-, _, _, -, -, -, hi⟩ := hvalid.exists_step_of_edge hedges hfirst
  obtain ⟨-, _, _, -, -, -, hj⟩ := hvalid.exists_step_of_edge hedges hmid
  obtain ⟨-, _, _, -, -, -, hk⟩ := hvalid.exists_step_of_edge hedges hlast
  have hparent := h _ _ _ _ _ _ first.source hi hj hk (Nat.succ_le_succ hij) (Nat.succ_le_succ hjk) rfl
    (congrArg some heq.symm)
  exact Option.some.inj hparent

/-- Two nodes with transitions out of them are of unequal states. -/
theorem ParentsExpanded.beq_eq_false_of_sources (h : s.ParentsExpanded) (hvalid : s.Valid p root)
    {edges : Array TreeEdge} (hedges : s.arena.Records edges) {edge edge' : TreeEdge} (hedge : edge ∈ edges)
    (hedge' : edge' ∈ edges) (hne : edge.source ≠ edge'.source) {node node' : Node}
    (hnode : s.arena.get? edge.source = some node) (hnode' : s.arena.get? edge'.source = some node') :
    (node.state == node'.state) = false := by
  have hexpanded : ∀ {e}, e ∈ edges → s.Expanded e.source := by
    intro e he
    obtain ⟨i, hi⟩ := Array.mem_iff_getElem?.1 he
    obtain ⟨-, _, _, -, -, -, hchild⟩ := hvalid.exists_step_of_edge hedges hi
    exact h _ _ _ hchild rfl
  exact hvalid.beq_eq_false_of_expanded (hexpanded hedge) hnode (hexpanded hedge') hnode' hne

end GoalRegression.Search
