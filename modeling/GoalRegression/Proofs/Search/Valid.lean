/-
What holds of a search at any time (`Valid`): every node but the root is the child of an earlier one through
one of its steps, whatever waits is a node in the bucket of its total cost, and the states expanded are
pairwise different and no targets. Between two rounds (`Settled`) every node waits or has an expanded state,
and every expansion is complete, so what is a step from an expanded state has become a node
(`Settled.exists_child`). Each kind of round keeps both.
-/
import GoalRegression.Proofs.PriorityQueue.Bucket
import GoalRegression.Proofs.Search.Rounds
import GoalRegression.Proofs.State.Content

namespace GoalRegression

theorem Node.totalCost_root (state : State) : (Node.root state).totalCost = 0 := by
  show (0 : Binary32) + 0 = 0
  decide

namespace Search

/-! ## At any time -/

structure Valid (p : Problem) (root : State) (s : Search) : Prop where
  queue : s.frontier.WellFormed
  factor : s.frontier.factor = (PriorityQueue.empty : PriorityQueue NodeId).factor
  root_node : s.arena.get? ⟨0⟩ = some (.root root)
  child : ∀ id node, s.arena.get? id = some node → 0 < id.index →
    ∃ parentId parent step, parentId.index < id.index ∧ s.arena.get? parentId = some parent ∧
      step ∈ p.steps parent.state ∧ node = .child parentId parent step
  waiting : ∀ e ∈ s.frontier.pending, ∃ node, s.arena.get? e.2 = some node ∧ e.1 = bucket node.totalCost
  expanded : s.expansions.toList.reverse.map (fun e => (s.arena.get? e.1).map (·.state)) = s.visited.map some
  distinct : s.visited.Pairwise fun a b => (a == b) = false
  refused : ∀ state ∈ s.visited, p.isTarget state = false

variable {p : Problem} {root : State} {earlyExit : Bool} {s s' : Search}

theorem valid_start (p : Problem) (root : State) (record : Bool) : (start root record).Valid p root where
  queue := PriorityQueue.wellFormed_empty.enqueue ..
  factor := rfl
  root_node := rfl
  child id node h hpos := by
    obtain ⟨rfl, -⟩ := get?_start h
    exact absurd hpos (Nat.lt_irrefl 0)
  waiting e he := by
    rw [pending_start, List.mem_singleton] at he
    subst he
    exact ⟨.root root, rfl, by rw [Node.totalCost_root, PriorityQueue.key_empty]⟩
  expanded := rfl
  distinct := .nil
  refused _ h := by cases h

theorem Valid.withFrontier (h : s.Valid p root) {id : NodeId} {frontier : PriorityQueue NodeId}
    (hpop : s.frontier.pop? = some (id, frontier)) : (s.withFrontier frontier).Valid p root := by
  obtain ⟨⟨key, hpending⟩, hfactor, hqueue⟩ := PriorityQueue.pop?_eq_some hpop
  refine ⟨hqueue h.queue, hfactor.trans h.factor, h.root_node, h.child, fun e he => ?_, h.expanded, h.distinct,
    h.refused⟩
  exact h.waiting e (hpending ▸ List.mem_cons_of_mem _ he)

theorem Valid.visit (h : s.Valid p root) {id : NodeId} {node : Node} (hnode : s.arena.get? id = some node)
    (hvisited : s.visited.contains node.state = false) (htarget : p.isTarget node.state = false)
    {children : Nat} : (s.visit id node.state children).Valid p root := by
  refine ⟨h.queue, h.factor, h.root_node, h.child, h.waiting, ?_, ?_, ?_⟩
  · show (s.expansions.push (id, children)).toList.reverse.map _ = (node.state :: s.visited).map some
    rw [Array.toList_push, List.reverse_append, List.reverse_singleton, List.singleton_append, List.map_cons,
      List.map_cons]
    exact congr (congrArg List.cons (congrArg (Option.map (·.state)) hnode)) h.expanded
  · refine List.pairwise_cons.2 ⟨fun state hstate => ?_, h.distinct⟩
    rw [← Bool.not_eq_true]
    intro heq
    rw [List.contains_iff_exists_mem_beq.2 ⟨state, hstate, heq⟩] at hvisited
    cases hvisited
  · intro state hstate
    rcases List.mem_cons.1 hstate with rfl | hstate
    · exact htarget
    · exact h.refused state hstate

/-- What waits is in the bucket of its total cost. -/
theorem Valid.key_eq (h : s.Valid p root) {key : Int} {id : NodeId} (hmem : (key, id) ∈ s.frontier.pending)
    {node : Node} (hnode : s.arena.get? id = some node) : key = bucket node.totalCost := by
  obtain ⟨other, hother, hkey⟩ := h.waiting (key, id) hmem
  cases hnode.symm.trans hother
  exact hkey

theorem Valid.exists_of_mem_expansions (h : s.Valid p root) {e : NodeId × Nat} (he : e ∈ s.expansions.toList) :
    ∃ node, s.arena.get? e.1 = some node ∧ node.state ∈ s.visited := by
  have hmem := List.mem_map_of_mem (f := fun e : NodeId × Nat => (s.arena.get? e.1).map (·.state))
    (List.mem_reverse.2 he)
  rw [h.expanded, List.mem_map] at hmem
  obtain ⟨state, hstate, heq⟩ := hmem
  obtain ⟨node, hnode, rfl⟩ := Option.map_eq_some_iff.1 heq.symm
  exact ⟨node, hnode, hstate⟩

theorem Valid.exists_expansion (h : s.Valid p root) {state : State} (hstate : state ∈ s.visited) :
    ∃ e ∈ s.expansions.toList, ∃ node, s.arena.get? e.1 = some node ∧ node.state = state := by
  have hmem := List.mem_map_of_mem (f := some) hstate
  rw [← h.expanded, List.mem_map] at hmem
  obtain ⟨e, he, heq⟩ := hmem
  exact ⟨e, List.mem_reverse.1 he, Option.map_eq_some_iff.1 heq⟩

/-- The states of the nodes expanded are pairwise unequal. -/
theorem Valid.expansions_distinct (h : s.Valid p root) :
    s.expansions.toList.Pairwise fun e e' => ∀ node node', s.arena.get? e.1 = some node →
      s.arena.get? e'.1 = some node' → (node.state == node'.state) = false := by
  have hdistinct : (s.visited.map some).Pairwise fun a b =>
      ∀ state state', a = some state → b = some state' → (state == state') = false := by
    refine List.pairwise_map.2 (h.distinct.imp ?_)
    intro a b hab state state' ha hb
    cases ha
    cases hb
    exact hab
  -- the visited states are those of the expansions, the last one first
  rw [← h.expanded, List.pairwise_map, List.pairwise_reverse] at hdistinct
  refine hdistinct.imp ?_
  intro e e' hee' node node' hnode hnode'
  rw [hnode, hnode'] at hee'
  rw [BEq.comm]
  exact hee' node'.state node.state rfl rfl

theorem Valid.addSteps (h : s.Valid p root) {id : NodeId} {node : Node} (hnode : s.arena.get? id = some node)
    {steps : List Step} (hsteps : ∀ step ∈ steps, step ∈ p.steps node.state) :
    (s.addSteps id node steps).Valid p root where
  queue := wellFormed_addSteps h.queue
  factor := (factor_addSteps s).trans h.factor
  root_node := get?_addSteps_of_some h.root_node
  child new n hn hpos := by
    rcases get?_addSteps hn with hn | ⟨hsize, step, hmem, rfl, -⟩
    · obtain ⟨parentId, parent, step, hlt, hparent, hstep, rfl⟩ := h.child new n hn hpos
      exact ⟨parentId, parent, step, hlt, get?_addSteps_of_some hparent, hstep, rfl⟩
    · have := Arena.lt_size_of_get? hnode
      exact ⟨id, node, step, by omega, get?_addSteps_of_some hnode, hsteps step hmem, rfl⟩
  waiting e he := by
    rcases mem_pending_addSteps he with he | ⟨step, hmem, hkey, hget⟩
    · obtain ⟨n, hn, hkey⟩ := h.waiting e he
      exact ⟨n, get?_addSteps_of_some hn, hkey⟩
    · exact ⟨_, hget, hkey.trans (PriorityQueue.key_eq_bucket h.factor _)⟩
  expanded := by
    rw [visited_addSteps, expansions_addSteps, ← h.expanded]
    refine List.map_congr_left fun e he => ?_
    obtain ⟨n, hn, -⟩ := h.exists_of_mem_expansions (List.mem_reverse.1 he)
    rw [hn, get?_addSteps_of_some hn]
  distinct := by rw [visited_addSteps]; exact h.distinct
  refused := by rw [visited_addSteps]; exact h.refused

/-- The head of the frontier may be expanded into the children by some of its steps. -/
theorem Valid.expand (h : s.Valid p root) {id : NodeId} {node : Node} {frontier : PriorityQueue NodeId}
    (hpop : s.frontier.pop? = some (id, frontier)) (hnode : s.arena.get? id = some node)
    (hvisited : s.visited.contains node.state = false) (htarget : p.isTarget node.state = false)
    {steps : List Step} (hsteps : steps <+: p.steps node.state) {children : Nat} :
    (((s.withFrontier frontier).visit id node.state children).addSteps id node steps).Valid p root :=
  ((h.withFrontier hpop).visit hnode hvisited htarget).addSteps hnode fun _ hstep => hsteps.subset hstep

theorem Valid.round {ending : Option Ending} (h : s.Valid p root) (hround : Round p earlyExit s s' ending) :
    s'.Valid p root := by
  rcases hround.effect with rfl | ⟨id, frontier, hpop, rfl | ⟨node, steps, hnode, hvisited, htarget, hsteps, rfl⟩⟩
  · exact h
  · exact h.withFrontier hpop
  · exact h.expand hpop hnode hvisited htarget hsteps

/-- What the root has and every step keeps, every node has. -/
theorem Valid.state_induction (h : s.Valid p root) {P : State → Prop} (hroot : P root)
    (hstep : ∀ state, P state → ∀ step ∈ p.steps state, P step.state) {id : NodeId} {node : Node}
    (hnode : s.arena.get? id = some node) : P node.state := by
  obtain ⟨i⟩ := id
  induction i using Nat.strongRecOn generalizing node with
  | ind i ih =>
    rcases Nat.eq_zero_or_pos i with rfl | hpos
    · obtain rfl := Option.some.inj (h.root_node.symm.trans hnode)
      exact hroot
    · obtain ⟨parentId, parent, step, hlt, hparent, hmem, rfl⟩ := h.child ⟨i⟩ node hnode hpos
      exact hstep parent.state (ih parentId.index hlt hparent) step hmem

/-! ## Between rounds -/

structure Settled (p : Problem) (s : Search) : Prop where
  served : ∀ id node, s.arena.get? id = some node →
    (∃ key, (key, id) ∈ s.frontier.pending) ∨ s.visited.contains node.state = true
  complete : ∀ e ∈ s.expansions.toList, ∀ node, s.arena.get? e.1 = some node →
    ∀ step ∈ p.steps node.state, ∃ new, s.arena.get? new = some (.child e.1 node step)

theorem settled_start (p : Problem) (root : State) (record : Bool) : (start root record).Settled p where
  served id node h := by
    obtain ⟨rfl, -⟩ := get?_start h
    exact .inl ⟨_, by rw [pending_start]; exact List.mem_cons_self⟩
  complete e he := by cases he

/-- A node whose state was expanded before may leave the frontier. -/
theorem Settled.withFrontier (h : s.Settled p) {id : NodeId} {frontier : PriorityQueue NodeId}
    (hpop : s.frontier.pop? = some (id, frontier))
    (hvisited : ∀ node, s.arena.get? id = some node → s.visited.contains node.state = true) :
    (s.withFrontier frontier).Settled p := by
  refine ⟨fun other node hnode => ?_, h.complete⟩
  obtain ⟨⟨key, hpending⟩, -, -⟩ := PriorityQueue.pop?_eq_some hpop
  rcases h.served other node hnode with ⟨key', hmem⟩ | hstate
  · rw [hpending] at hmem
    rcases List.mem_cons.1 hmem with heq | hmem
    · cases heq
      exact .inr (hvisited node hnode)
    · exact .inl ⟨key', hmem⟩
  · exact .inr hstate

theorem Settled.expand (h : s.Settled p) (hvalid : s.Valid p root) {id : NodeId} {node : Node}
    {frontier : PriorityQueue NodeId} (hpop : s.frontier.pop? = some (id, frontier))
    (hnode : s.arena.get? id = some node) :
    (((s.withFrontier frontier).visit id node.state (p.steps node.state).length).addSteps id node
      (p.steps node.state)).Settled p := by
  obtain ⟨⟨key, hpending⟩, -, -⟩ := PriorityQueue.pop?_eq_some hpop
  have hkeep : ∀ old n, s.arena.get? old = some n →
      (((s.withFrontier frontier).visit id node.state (p.steps node.state).length).addSteps id node
        (p.steps node.state)).arena.get? old = some n := fun _ _ h => get?_addSteps_of_some h
  refine ⟨fun other n hn => ?_, fun e he n hn step hstep => ?_⟩
  · rw [visited_addSteps]
    have hcons : ∀ state, (node.state :: s.visited).contains state = true ↔
        (state == node.state) = true ∨ s.visited.contains state = true := by
      intro state
      rw [List.contains_cons, Bool.or_eq_true]
    rcases get?_addSteps hn with hn | ⟨-, step, -, rfl, hmem⟩
    · -- an old node waits on, or is the one just expanded, or was expanded before
      rcases h.served other n hn with ⟨key', hmem⟩ | hstate
      · rw [hpending] at hmem
        rcases List.mem_cons.1 hmem with heq | hmem
        · cases heq
          obtain rfl := Option.some.inj (hnode.symm.trans hn)
          exact .inr ((hcons _).2 (.inl BEq.rfl))
        · exact .inl ⟨key', mem_pending_addSteps_of_mem hmem⟩
      · exact .inr ((hcons _).2 (.inr hstate))
    · exact .inl ⟨_, hmem⟩
  · rw [expansions_addSteps] at he
    rcases mem_expansions_visit.1 he with he | rfl
    · -- an earlier expansion: its node was there, so its children were
      obtain ⟨old, hold, -⟩ := hvalid.exists_of_mem_expansions he
      rw [hkeep e.1 old hold] at hn
      cases hn
      obtain ⟨new, hnew⟩ := h.complete e he n hold step hstep
      exact ⟨new, hkeep new _ hnew⟩
    · rw [hkeep id node hnode] at hn
      cases hn
      exact exists_child_of_mem hstep

theorem Settled.round (h : s.Settled p) (hvalid : s.Valid p root) (hround : Round p earlyExit s s' none) :
    s'.Settled p := by
  cases hround with
  | unknown hpop hnode => exact h.withFrontier hpop fun node h => by rw [hnode] at h; cases h
  | skipped hpop hnode hvisited =>
    exact h.withFrontier hpop fun n hn => Option.some.inj (hnode.symm.trans hn) ▸ hvisited
  | expanded hpop hnode => exact h.expand hvalid hpop hnode

end Search

/-! ## States expanded, up to equality -/

/-- Equal states are targets alike, and have steps by the same actions, to equal states, at the same
estimates. -/
structure Problem.Congruent (p : Problem) : Prop where
  target : ∀ s t, (s == t) = true → p.isTarget s = p.isTarget t
  steps : ∀ s t, (s == t) = true → ∀ step ∈ p.steps s, ∃ step' ∈ p.steps t,
    step'.action = step.action ∧ (step'.state == step.state) = true ∧ step'.estimate = step.estimate

namespace Search

variable {p : Problem} {root : State} {s : Search} {state : State}

/-- The node was expanded. -/
def Expanded (s : Search) (id : NodeId) : Prop := ∃ children, (id, children) ∈ s.expansions.toList

theorem Valid.exists_expanded_of_contains (h : s.Valid p root) (hstate : s.visited.contains state = true) :
    ∃ id node, s.Expanded id ∧ s.arena.get? id = some node ∧ (state == node.state) = true := by
  obtain ⟨visited, hmem, heq⟩ := List.contains_iff_exists_mem_beq.1 hstate
  obtain ⟨e, he, node, hnode, rfl⟩ := h.exists_expansion hmem
  exact ⟨e.1, node, ⟨e.2, he⟩, hnode, heq⟩

/-- A target equals no state that was expanded. -/
theorem Valid.contains_eq_false_of_isTarget (h : s.Valid p root) (hp : p.Congruent)
    (htarget : p.isTarget state = true) : s.visited.contains state = false := by
  rw [← Bool.not_eq_true, List.contains_iff_exists_mem_beq]
  rintro ⟨visited, hmem, heq⟩
  rw [hp.target _ _ heq, h.refused visited hmem] at htarget
  cases htarget

/-- Whatever step there is from an expanded state, up to equality an expanded node has it as a child. -/
theorem Settled.exists_child (h : s.Settled p) (hvalid : s.Valid p root) (hp : p.Congruent)
    (hstate : s.visited.contains state = true) {step : Step} (hstep : step ∈ p.steps state) :
    ∃ e ∈ s.expansions.toList, ∃ node, s.arena.get? e.1 = some node ∧ (node.state == state) = true ∧
      ∃ step' ∈ p.steps node.state, step'.action = step.action ∧ (step'.state == step.state) = true ∧
        step'.estimate = step.estimate ∧ ∃ new, s.arena.get? new = some (.child e.1 node step') := by
  obtain ⟨visited, hmem, heq⟩ := List.contains_iff_exists_mem_beq.1 hstate
  obtain ⟨e, he, node, hnode, rfl⟩ := hvalid.exists_expansion hmem
  obtain ⟨step', hstep', haction, hbeq, hestimate⟩ := hp.steps state node.state heq step hstep
  exact ⟨e, he, node, hnode, BEq.symm heq, step', hstep', haction, hbeq, hestimate,
    h.complete e he node hnode step' hstep'⟩

end Search

end GoalRegression
