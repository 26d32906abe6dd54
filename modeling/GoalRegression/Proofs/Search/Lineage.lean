/-
The way from the root to a node. Parents stand before their children, so the walk up from a node is as long
as it has to be (`chainWithin_eq_chain`): it takes the node, with the action that led there, and goes on from
the parent (`chain_child`, `pathActions_child`). The actions it gathers are those of a descent from the root
through steps of the problem (`Valid.descends`).
-/
import GoalRegression.Proofs.Search.Valid

namespace GoalRegression

/-- The state comes from the root through steps with these actions, the last step first. -/
inductive Problem.Descends (p : Problem) (root : State) : State → List Action → Prop
  | root : p.Descends root root []
  | step {state : State} {actions : List Action} {step : Step} (h : p.Descends root state actions)
    (hstep : step ∈ p.steps state) : p.Descends root step.state (step.action :: actions)

namespace Arena

/-- Every node comes after its parent. -/
def Ordered (arena : Arena) : Prop :=
  ∀ id node parent, arena.get? id = some node → node.parent = some parent → parent.index < id.index

/-- Once they exceed the position, more steps do not lengthen the walk. -/
theorem chainWithin_eq_chain {arena : Arena} (h : arena.Ordered) {steps : Nat} {id : NodeId}
    (hsteps : id.index < steps) : arena.chainWithin steps id = arena.chain id := by
  obtain ⟨i⟩ := id
  unfold chain
  induction i using Nat.strongRecOn generalizing steps with
  | ind i ih =>
    obtain ⟨steps, rfl⟩ := Nat.exists_eq_succ_of_ne_zero (Nat.ne_of_gt (Nat.zero_lt_of_lt hsteps))
    rw [chainWithin, chainWithin]
    cases hnode : arena.get? ⟨i⟩ with
    | none => rfl
    | some node =>
      dsimp only
      cases hparent : node.parent with
      | none => rfl
      | some parent =>
        -- both walks go on from the parent, with more steps left than its position
        have hlt : parent.index < i := h ⟨i⟩ node parent hnode hparent
        have hleft := ih parent.index hlt (Nat.lt_of_lt_of_le hlt (Nat.le_of_lt_succ hsteps))
        exact congrArg (node :: ·) (hleft.trans (ih parent.index hlt hlt).symm)

theorem chain_child {arena : Arena} (h : arena.Ordered) {id parentId : NodeId} {parent : Node} {step : Step}
    (hnode : arena.get? id = some (.child parentId parent step)) :
    arena.chain id = .child parentId parent step :: arena.chain parentId := by
  have hlt : parentId.index < id.index := h id _ parentId hnode rfl
  rw [← chainWithin_eq_chain h hlt]
  unfold chain
  rw [chainWithin, hnode]
  rfl

theorem pathActions_child {arena : Arena} (h : arena.Ordered) {id parentId : NodeId} {parent : Node}
    {step : Step} (hnode : arena.get? id = some (.child parentId parent step)) :
    arena.pathActions id = step.action :: arena.pathActions parentId := by
  unfold pathActions
  rw [chain_child h hnode]
  rfl

end Arena

namespace Search

variable {p : Problem} {root : State} {s : Search}

theorem Valid.ordered (h : s.Valid p root) : s.arena.Ordered := by
  intro id node parent hnode hparent
  rcases Nat.eq_zero_or_pos id.index with hzero | hpos
  · obtain rfl : id = ⟨0⟩ := congrArg NodeId.mk hzero
    rw [h.root_node] at hnode
    cases hnode
    cases hparent
  · obtain ⟨parentId, grandparent, step, hlt, -, -, rfl⟩ := h.child id node hnode hpos
    cases hparent
    exact hlt

theorem Valid.chain_root (h : s.Valid p root) : s.arena.chain ⟨0⟩ = [.root root] := by
  unfold Arena.chain
  rw [Arena.chainWithin, h.root_node]
  rfl

theorem Valid.pathActions_root (h : s.Valid p root) : s.arena.pathActions ⟨0⟩ = [] := by
  unfold Arena.pathActions
  rw [h.chain_root]
  rfl

/-- A statement on nodes and the actions from them up to the root, proved downwards from the root. -/
theorem Valid.path_induction (h : s.Valid p root) {P : NodeId → Node → List Action → Prop}
    (hroot : P ⟨0⟩ (.root root) [])
    (hchild : ∀ id parentId parent step, s.arena.get? parentId = some parent →
      s.arena.get? id = some (.child parentId parent step) → step ∈ p.steps parent.state →
      P parentId parent (s.arena.pathActions parentId) →
      P id (.child parentId parent step) (step.action :: s.arena.pathActions parentId))
    {id : NodeId} {node : Node} (hnode : s.arena.get? id = some node) : P id node (s.arena.pathActions id) := by
  obtain ⟨i⟩ := id
  induction i using Nat.strongRecOn generalizing node with
  | ind i ih =>
    rcases Nat.eq_zero_or_pos i with rfl | hpos
    · rw [h.root_node] at hnode
      cases hnode
      rw [h.pathActions_root]
      exact hroot
    · obtain ⟨parentId, parent, step, hlt, hparent, hstep, rfl⟩ := h.child ⟨i⟩ node hnode hpos
      rw [Arena.pathActions_child h.ordered hnode]
      exact hchild _ parentId parent step hparent hnode hstep (ih parentId.index hlt hparent)

/-- Every node comes from the root by the actions on its path. -/
theorem Valid.descends (h : s.Valid p root) {id : NodeId} {node : Node} (hnode : s.arena.get? id = some node) :
    p.Descends root node.state (s.arena.pathActions id) := by
  refine h.path_induction (P := fun _ node actions => p.Descends root node.state actions) .root ?_ hnode
  intro id parentId parent step _ _ hstep ih
  exact .step ih hstep

end Search

end GoalRegression
