/-
The way up at any moment of a search: between two rounds, once the head has left the frontier, and after each child
that is made (`During`). What waits, what a transition joins and what is a parent are nodes then, parents stand
before their children, and the root alone has no parent and no action (`Grounded`). So going from a node to its
parent as long as there is one (`Arena.Ascends`) ends at the root, and meets one action at each node before it, as
many as the level of the first node says.
-/
import GoalRegression.Proofs.Search.Siblings

namespace GoalRegression

/-- What waits, in the order in which it leaves. -/
theorem PriorityQueue.map_snd_pending {α : Type u} (q : PriorityQueue α) : q.pending.map (·.2) = q.toList := by
  unfold pending flatten toList
  rw [List.map_flatMap]
  simp only [List.map_map, Function.comp_def, List.map_id']

/-- Going from the node `id` to its parent, and on from there as long as there is a parent, meets these nodes. No
number of steps is given beforehand. -/
inductive Arena.Ascends (arena : Arena) : NodeId → List Node → Prop
  | top {id node} (hnode : arena.get? id = some node) (hparent : node.parent = none) : arena.Ascends id [node]
  | up {id node parent above} (hnode : arena.get? id = some node) (hparent : node.parent = some parent)
    (h : arena.Ascends parent above) : arena.Ascends id (node :: above)

namespace Search

variable {p : Problem} {root : State} {earlyExit record : Bool} {s : Search}

/-! ## Moments of a search -/

/-- The search is passed through on the way from the first one: between two rounds, when a node has left the
frontier, or when that node has been expanded into the children by the first of its steps. -/
inductive During (p : Problem) (earlyExit : Bool) (s : Search) : Search → Prop
  | between {n s'} (h : Reaches p earlyExit s n s') : During p earlyExit s s'
  | popped {n s' id frontier} (h : Reaches p earlyExit s n s') (hpop : s'.frontier.pop? = some (id, frontier)) :
    During p earlyExit s (s'.withFrontier frontier)
  | adding {n s' id frontier node steps} (h : Reaches p earlyExit s n s')
    (hpop : s'.frontier.pop? = some (id, frontier)) (hnode : s'.arena.get? id = some node)
    (hvisited : s'.visited.contains node.state = false) (htarget : p.isTarget node.state = false)
    (hsteps : steps <+: p.steps node.state)
    (hexit : earlyExit = true → ∀ step ∈ steps.dropLast, p.isTarget step.state = false) :
    During p earlyExit s (((s'.withFrontier frontier).visit id node.state (p.steps node.state).length).addSteps
      id node steps)

/-- A run ends at one of its moments. -/
theorem during_run (p : Problem) (earlyExit : Bool) (rounds : Nat) (s : Search) :
    During p earlyExit s (run p earlyExit rounds s).search := by
  rcases run_cases p earlyExit rounds s with ⟨s', hreach, heq⟩ | ⟨n, s', s'', ending, -, hreach, hround, heq⟩
  · rw [heq]
    exact .between hreach
  · rw [heq]
    cases hround with
    | exhausted => exact .between hreach
    | found hpop => exact .popped hreach hpop
    | @reached id frontier node before step after hpop hnode hvisited htarget hsteps _ hbefore =>
      refine .adding hreach hpop hnode hvisited htarget ⟨after, ?_⟩ fun _ => ?_
      · rw [hsteps, List.append_assoc, List.singleton_append]
      · rw [List.dropLast_concat]
        exact hbefore

theorem During.valid (h : During p earlyExit (start root record) s) : s.Valid p root := by
  cases h with
  | between hreach => exact hreach.valid_settled.1
  | popped hreach hpop => exact hreach.valid_settled.1.withFrontier hpop
  | adding hreach hpop hnode hvisited htarget hsteps =>
    exact hreach.valid_settled.1.expand hpop hnode hvisited htarget hsteps

theorem During.recorded (h : During p earlyExit (start root record) s) : s.Recorded := by
  have hrecorded : ∀ {n s'}, Reaches p earlyExit (start root record) n s' → s'.Recorded := fun hreach =>
    hreach.invariant (fun _ _ hs hround => hround.recorded hs) (recorded_start root record)
  cases h with
  | between hreach => exact hrecorded hreach
  | popped hreach => exact (hrecorded hreach).withFrontier _
  | adding hreach => exact (((hrecorded hreach).withFrontier _).visit _ _ _).addSteps

/-! ## The way up -/

/-- Every position that the search holds is that of a node, and all ways up end at the root. -/
structure Grounded (s : Search) : Prop where
  waiting : ∀ id ∈ s.frontier.toList, id.index < s.arena.size
  head : ∀ id frontier, s.frontier.pop? = some (id, frontier) → ∃ node, s.arena.get? id = some node
  edge : ∀ edges, s.edges = some edges → ∀ edge ∈ edges,
    edge.source.index < s.arena.size ∧ edge.target.index < s.arena.size
  parent : ∀ id node parent, s.arena.get? id = some node → node.parent = some parent →
    parent.index < id.index ∧ parent.index < s.arena.size
  no_parent : ∀ id node, s.arena.get? id = some node → (node.parent = none ↔ id = ⟨0⟩)
  no_action : ∀ id node, s.arena.get? id = some node → (node.action = none ↔ id = ⟨0⟩)
  ascends : ∀ id node, s.arena.get? id = some node → s.arena.Ascends id (s.arena.chain id)
  bounded : ∀ id steps, id.index < steps → s.arena.chainWithin steps id = s.arena.chain id
  top : ∀ id node, s.arena.get? id = some node → (s.arena.chain id).getLast? = s.arena.get? ⟨0⟩
  /-- Every node on the way has given its action, in this order, except the root at the end. -/
  actions : ∀ id node, s.arena.get? id = some node →
    (s.arena.chain id).map (·.action) = (s.arena.pathActions id).map some ++ [none]
  level : ∀ id node, s.arena.get? id = some node → (s.arena.pathActions id).length = node.level

variable {id : NodeId} {node : Node}

/-- A node is the root, which stands first, or it has an action and an earlier node as its parent. -/
theorem Valid.root_or_child (h : s.Valid p root) (hnode : s.arena.get? id = some node) :
    id = ⟨0⟩ ∧ node = .root root ∨
      id ≠ ⟨0⟩ ∧ ∃ parent, node.parent = some parent ∧ node.action.isSome = true ∧ parent.index < id.index := by
  rcases Nat.eq_zero_or_pos id.index with hzero | hpos
  · obtain rfl : id = ⟨0⟩ := congrArg NodeId.mk hzero
    exact .inl ⟨rfl, Option.some.inj (hnode.symm.trans h.root_node)⟩
  · obtain ⟨parentId, parent, step, hlt, -, -, rfl⟩ := h.child id node hnode hpos
    refine .inr ⟨?_, parentId, rfl, rfl, hlt⟩
    rintro rfl
    exact Nat.lt_irrefl 0 hpos

theorem Valid.ascends (h : s.Valid p root) (hnode : s.arena.get? id = some node) :
    s.arena.Ascends id (s.arena.chain id) := by
  refine h.path_induction (P := fun id _ _ => s.arena.Ascends id (s.arena.chain id)) ?_ ?_ hnode
  · rw [h.chain_root]
    exact .top h.root_node rfl
  · intro id parentId parent step _ hchild _ ih
    rw [Arena.chain_child h.ordered hchild]
    exact .up hchild rfl ih

theorem Valid.getLast?_chain (h : s.Valid p root) (hnode : s.arena.get? id = some node) :
    (s.arena.chain id).getLast? = s.arena.get? ⟨0⟩ := by
  refine h.path_induction (P := fun id _ _ => (s.arena.chain id).getLast? = s.arena.get? ⟨0⟩) ?_ ?_ hnode
  · rw [h.chain_root, h.root_node, List.getLast?_singleton]
  · intro id parentId parent step _ hchild _ ih
    rw [Arena.chain_child h.ordered hchild, List.getLast?_cons, ih, h.root_node, Option.getD_some]

theorem Valid.map_action_chain (h : s.Valid p root) (hnode : s.arena.get? id = some node) :
    (s.arena.chain id).map (·.action) = (s.arena.pathActions id).map some ++ [none] := by
  refine h.path_induction
    (P := fun id _ path => (s.arena.chain id).map (·.action) = path.map some ++ [none]) ?_ ?_ hnode
  · rw [h.chain_root]
    rfl
  · intro id parentId parent step _ hchild _ ih
    rw [Arena.chain_child h.ordered hchild, List.map_cons, ih]
    rfl

theorem Valid.length_pathActions (h : s.Valid p root) (hnode : s.arena.get? id = some node) :
    (s.arena.pathActions id).length = node.level := by
  refine h.path_induction (P := fun _ node path => path.length = node.level) rfl ?_ hnode
  intro id parentId parent step _ _ _ ih
  exact congrArg (· + 1) ih

theorem Valid.grounded (h : s.Valid p root) (hrecorded : s.Recorded) : s.Grounded where
  waiting id hid := by
    rw [← PriorityQueue.map_snd_pending, List.mem_map] at hid
    obtain ⟨e, he, rfl⟩ := hid
    obtain ⟨node, hnode, -⟩ := h.waiting e he
    exact Arena.lt_size_of_get? hnode
  head id frontier hpop := by
    obtain ⟨⟨key, hpending⟩, -, -⟩ := PriorityQueue.pop?_eq_some hpop
    obtain ⟨node, hnode, -⟩ := h.waiting (key, id) (hpending ▸ List.mem_cons_self)
    exact ⟨node, hnode⟩
  edge edges hedges edge hedge := by
    have hrecords := hrecorded edges hedges
    obtain ⟨i, hi⟩ := Array.mem_iff_getElem?.1 hedge
    obtain ⟨-, parent, step, hparent, -, -, hchild⟩ := h.exists_step_of_edge hrecords hi
    rw [hrecords.target_eq hi]
    exact ⟨Arena.lt_size_of_get? hparent, Arena.lt_size_of_get? hchild⟩
  parent id node parent hnode hparent := by
    have hlt := h.ordered id node parent hnode hparent
    exact ⟨hlt, Nat.lt_trans hlt (Arena.lt_size_of_get? hnode)⟩
  no_parent id node hnode := by
    rcases h.root_or_child hnode with ⟨rfl, rfl⟩ | ⟨hne, parent, hparent, -, -⟩
    · exact iff_of_true rfl rfl
    · exact iff_of_false (by rw [hparent]; exact Option.some_ne_none parent) hne
  no_action id node hnode := by
    rcases h.root_or_child hnode with ⟨rfl, rfl⟩ | ⟨hne, parent, -, haction, -⟩
    · exact iff_of_true rfl rfl
    · exact iff_of_false (Option.isSome_iff_ne_none.1 haction) hne
  ascends _ _ hnode := h.ascends hnode
  bounded _ _ hsteps := Arena.chainWithin_eq_chain h.ordered hsteps
  top _ _ hnode := h.getLast?_chain hnode
  actions _ _ hnode := h.map_action_chain hnode
  level _ _ hnode := h.length_pathActions hnode

/-- At every moment of a search all positions are those of nodes and all ways up end at the root, by as many actions
as the level of the node says. A run ends at such a moment, and with a winner only if that is a node as well. -/
theorem parents_wellFounded (p : Problem) (root : State) (earlyExit record : Bool) :
    (∀ s, During p earlyExit (start root record) s → s.Grounded) ∧
      ∀ rounds, During p earlyExit (start root record) (run p earlyExit rounds (start root record)).search ∧
        ∀ id, (run p earlyExit rounds (start root record)).ending.winner? = some id →
          ∃ node, (run p earlyExit rounds (start root record)).search.arena.get? id = some node ∧
            ∃ path, (run p earlyExit rounds (start root record)).actions? = some path ∧ path.length = node.level := by
  refine ⟨fun s h => h.valid.grounded h.recorded, fun rounds => ⟨during_run .., fun id hwinner => ?_⟩⟩
  obtain ⟨node, hnode, -⟩ := isTarget_of_winner? hwinner
  refine ⟨node, hnode, _, ?_, (valid_run p root earlyExit record rounds).length_pathActions hnode⟩
  unfold Outcome.actions?
  rw [hwinner]
  rfl

end Search

end GoalRegression
