/-
The nodes above a node. A node has children only once it is expanded (`ParentsExpanded`), so all nodes above
another one were expanded. Hence every end of a path is the path of an expanded node
(`ParentsExpanded.exists_of_drop`), and no two states on the way from a node to the root are equal, if that of the
node itself is none of those expanded before it (`ParentsExpanded.chain_distinct`).
-/
import GoalRegression.Proofs.Search.Lineage
import GoalRegression.Proofs.Search.Outcome
import Mathlib.Data.List.Pairwise

namespace GoalRegression.Search

variable {p : Problem} {root : State} {earlyExit : Bool} {s s' : Search}

/-! ## Parents -/

/-- Every node that has children was expanded. -/
def ParentsExpanded (s : Search) : Prop :=
  ∀ id node parent, s.arena.get? id = some node → node.parent = some parent → s.Expanded parent

theorem Expanded.visit {id : NodeId} (h : s.Expanded id) (new : NodeId) (state : State) (children : Nat) :
    (s.visit new state children).Expanded id := by
  obtain ⟨count, hmem⟩ := h
  exact ⟨count, mem_expansions_visit.2 (.inl hmem)⟩

theorem expanded_visit (s : Search) (id : NodeId) (state : State) (children : Nat) :
    (s.visit id state children).Expanded id := ⟨children, mem_expansions_visit.2 (.inr rfl)⟩

theorem ParentsExpanded.visit (h : s.ParentsExpanded) (id : NodeId) (state : State) (children : Nat) :
    (s.visit id state children).ParentsExpanded :=
  fun other node parent hnode hparent => (h other node parent hnode hparent).visit id state children

theorem ParentsExpanded.addSteps (h : s.ParentsExpanded) {id : NodeId} {node : Node} {steps : List Step}
    (hid : s.Expanded id) : (s.addSteps id node steps).ParentsExpanded := by
  intro new n parent hn hparent
  unfold Expanded
  rw [expansions_addSteps]
  rcases get?_addSteps hn with hn | ⟨-, step, -, rfl, -⟩
  · exact h new n parent hn hparent
  · cases hparent
    exact hid

theorem Round.parentsExpanded {ending : Option Ending} (h : Round p earlyExit s s' ending)
    (hs : s.ParentsExpanded) : s'.ParentsExpanded := by
  rcases h.effect with rfl | ⟨id, frontier, -, rfl | ⟨node, steps, -, -, -, -, rfl⟩⟩
  · exact hs
  · exact hs
  · have hpopped : (s.withFrontier frontier).ParentsExpanded := hs
    exact (hpopped.visit _ _ _).addSteps (expanded_visit _ _ _ _)

theorem parentsExpanded_run (p : Problem) (root : State) (earlyExit record : Bool) (rounds : Nat) :
    (run p earlyExit rounds (start root record)).search.ParentsExpanded := by
  refine run_invariant (fun _ _ _ hs hround => hround.parentsExpanded hs) rounds ?_
  intro id node parent hnode hparent
  obtain ⟨rfl, rfl⟩ := get?_start hnode
  cases hparent

/-! ## Expanded nodes -/

variable {id : NodeId} {node : Node}

theorem Valid.mem_visited_of_expanded (h : s.Valid p root) (hid : s.Expanded id)
    (hnode : s.arena.get? id = some node) : node.state ∈ s.visited := by
  obtain ⟨children, hmem⟩ := hid
  obtain ⟨other, hother, hstate⟩ := h.exists_of_mem_expansions hmem
  cases hnode.symm.trans hother
  exact hstate

/-- Two nodes expanded are of unequal states. -/
theorem Valid.beq_eq_false_of_expanded (h : s.Valid p root) (hid : s.Expanded id)
    (hnode : s.arena.get? id = some node) {id' : NodeId} {node' : Node} (hid' : s.Expanded id')
    (hnode' : s.arena.get? id' = some node') (hne : id ≠ id') : (node.state == node'.state) = false := by
  obtain ⟨children, hmem⟩ := hid
  obtain ⟨children', hmem'⟩ := hid'
  have hsymm : Std.Symm fun e e' : NodeId × Nat => ∀ node node', s.arena.get? e.1 = some node →
      s.arena.get? e'.1 = some node' → (node.state == node'.state) = false := by
    refine ⟨fun e e' hee' n n' hn hn' => ?_⟩
    rw [BEq.comm]
    exact hee' n' n hn' hn
  exact h.expansions_distinct.forall hmem hmem' (fun heq => hne (congrArg Prod.fst heq)) node node' hnode hnode'

/-! ## The way to the root -/

theorem Valid.length_chain (h : s.Valid p root) (hnode : s.arena.get? id = some node) :
    (s.arena.chain id).length = (s.arena.pathActions id).length + 1 := by
  refine h.path_induction (P := fun id _ path => (s.arena.chain id).length = path.length + 1) ?_ ?_ hnode
  · rw [h.chain_root]
    rfl
  · intro id parentId parent step _ hchild _ ih
    rw [Arena.chain_child h.ordered hchild, List.length_cons, List.length_cons, ih]

namespace ParentsExpanded

/-- What a path ends with is the path of a node that was expanded. -/
theorem exists_of_drop (h : s.ParentsExpanded) (hvalid : s.Valid p root) (hnode : s.arena.get? id = some node)
    {i : Nat} (hpos : 0 < i) (hi : i ≤ (s.arena.pathActions id).length) :
    ∃ above n, s.Expanded above ∧ s.arena.get? above = some n ∧
      s.arena.pathActions above = (s.arena.pathActions id).drop i := by
  refine hvalid.path_induction (P := fun _ _ path => ∀ i, 0 < i → i ≤ path.length → ∃ above n, s.Expanded above ∧
    s.arena.get? above = some n ∧ s.arena.pathActions above = path.drop i) ?_ ?_ hnode i hpos hi
  · intro i hpos hi
    rw [List.length_nil] at hi
    omega
  · intro id parentId parent step hparent hchild _ ih i hpos hi
    obtain ⟨i, rfl⟩ := Nat.exists_eq_succ_of_ne_zero (Nat.ne_of_gt hpos)
    rw [List.length_cons] at hi
    rcases Nat.eq_zero_or_pos i with rfl | hpos
    · exact ⟨parentId, parent, h id _ parentId hchild rfl, hparent, rfl⟩
    · exact ih i hpos (by omega)

/-- The nodes on the way to the root are the node itself and expanded ones made before it. -/
theorem exists_of_mem_chain (h : s.ParentsExpanded) (hvalid : s.Valid p root) (hnode : s.arena.get? id = some node)
    {n : Node} (hn : n ∈ s.arena.chain id) :
    ∃ above, s.arena.get? above = some n ∧ (above = id ∨ s.Expanded above ∧ above.index < id.index) := by
  refine hvalid.path_induction (P := fun id _ _ => ∀ n ∈ s.arena.chain id, ∃ above,
    s.arena.get? above = some n ∧ (above = id ∨ s.Expanded above ∧ above.index < id.index)) ?_ ?_ hnode n hn
  · intro n hn
    rw [hvalid.chain_root, List.mem_singleton] at hn
    exact ⟨⟨0⟩, hn ▸ hvalid.root_node, .inl rfl⟩
  · intro id parentId parent step hparent hchild _ ih n hn
    rw [Arena.chain_child hvalid.ordered hchild] at hn
    rcases List.mem_cons.1 hn with rfl | hn
    · exact ⟨id, hchild, .inl rfl⟩
    · have hlt : parentId.index < id.index := hvalid.ordered id _ parentId hchild rfl
      obtain ⟨above, habove, rfl | ⟨hexpanded, hindex⟩⟩ := ih n hn
      · exact ⟨above, habove, .inr ⟨h id _ above hchild rfl, hlt⟩⟩
      · exact ⟨above, habove, .inr ⟨hexpanded, by omega⟩⟩

/-- The states on the way to the root are pairwise unequal, if the first one equals none expanded earlier. -/
theorem chain_distinct (h : s.ParentsExpanded) (hvalid : s.Valid p root) (hnode : s.arena.get? id = some node)
    (hfresh : ∀ above n, s.Expanded above → above.index < id.index → s.arena.get? above = some n →
      (node.state == n.state) = false) :
    ((s.arena.chain id).map (·.state)).Pairwise fun a b => (a == b) = false := by
  refine hvalid.path_induction (P := fun id node _ => (∀ above n, s.Expanded above → above.index < id.index →
    s.arena.get? above = some n → (node.state == n.state) = false) →
    ((s.arena.chain id).map (·.state)).Pairwise fun a b => (a == b) = false) ?_ ?_ hnode hfresh
  · intro _
    rw [hvalid.chain_root]
    exact List.pairwise_singleton ..
  · intro id parentId parent step hparent hchild _ ih hfresh
    have hlt : parentId.index < id.index := hvalid.ordered id _ parentId hchild rfl
    have hexpanded := h id _ parentId hchild rfl
    rw [Arena.chain_child hvalid.ordered hchild, List.map_cons, List.pairwise_cons]
    refine ⟨fun state hstate => ?_, ih fun above n habove hindex hn => ?_⟩
    · obtain ⟨n, hn, rfl⟩ := List.mem_map.1 hstate
      obtain ⟨above, habove, rfl | ⟨hexpanded, hindex⟩⟩ := h.exists_of_mem_chain hvalid hparent hn
      · exact hfresh above n hexpanded hlt habove
      · exact hfresh above n hexpanded (by omega) habove
    · -- the parent was expanded, so it equals no other node that was
      refine hvalid.beq_eq_false_of_expanded hexpanded hparent habove hn ?_
      rintro rfl
      exact Nat.lt_irrefl _ hindex

end ParentsExpanded

end GoalRegression.Search
