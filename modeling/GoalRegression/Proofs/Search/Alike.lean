/-
Two searches whose actions correspond and cost the same. They go side by side: a round of one is a round of the
other (`Round.alike`), so the runs end alike, with nodes and transitions that match one by one (`run_alike`).
Whether one of them keeps a record makes no difference to this.
-/
import GoalRegression.Proofs.Search.Rounds
import Mathlib.Data.List.Forall2

namespace GoalRegression

/-! ## Lists that correspond -/

theorem forall₂_getElem? {α : Type u} {β : Type v} {R : α → β → Prop} {xs : List α} {ys : List β}
    (h : List.Forall₂ R xs ys) (i : Nat) : Option.Rel R xs[i]? ys[i]? := by
  induction h generalizing i with
  | nil => exact .none
  | cons hxy _ ih =>
    cases i with
    | zero => exact .some hxy
    | succ i => exact ih i

theorem exists_of_forall₂_append_cons {α : Type u} {β : Type v} {R : α → β → Prop} {before after : List α} {x : α}
    {ys : List β} (h : List.Forall₂ R (before ++ x :: after) ys) :
    ∃ before' y after', ys = before' ++ y :: after' ∧ List.Forall₂ R before before' ∧ R x y := by
  induction before generalizing ys with
  | nil =>
    obtain ⟨y, after', hxy, -, rfl⟩ := List.forall₂_cons_left_iff.1 h
    exact ⟨[], y, after', rfl, .nil, hxy⟩
  | cons z before ih =>
    obtain ⟨w, rest, hzw, hrest, rfl⟩ := List.forall₂_cons_left_iff.1 h
    obtain ⟨before', y, after', rfl, hbefore, hxy⟩ := ih hrest
    exact ⟨w :: before', y, after', rfl, .cons hzw hbefore, hxy⟩

/-! ## What corresponds -/

section

variable (R : Action → Action → Prop)

/-- The steps lead to the same state, through actions that correspond. -/
structure Step.Alike (step step' : Step) : Prop where
  action : R step.action step'.action
  state_eq : step.state = step'.state
  estimate_eq : step.estimate = step'.estimate

/-- The nodes are the same but for their actions, which correspond. -/
structure Node.Alike (node node' : Node) : Prop where
  action : Option.Rel R node.action node'.action
  state_eq : node.state = node'.state
  parent_eq : node.parent = node'.parent
  level_eq : node.level = node'.level
  runningCost_eq : node.runningCost = node'.runningCost
  estimate_eq : node.estimate = node'.estimate

/-- The transitions join the same positions, through actions that correspond. -/
structure TreeEdge.Alike (edge edge' : TreeEdge) : Prop where
  source_eq : edge.source = edge'.source
  target_eq : edge.target = edge'.target
  action : R edge.action edge'.action

/-- The problems have the same targets and alike steps, and actions that correspond cost the same. -/
structure Problem.Alike (p p' : Problem) : Prop where
  target : ∀ state, p.isTarget state = p'.isTarget state
  steps : ∀ state, List.Forall₂ (Step.Alike R) (p.steps state) (p'.steps state)
  cost : ∀ a a', R a a' → ∀ state, a.cost state = a'.cost state

/-- The searches are the same but for the actions of their nodes, which correspond, and for their records, which are
alike if both keep one. -/
structure Search.Alike (s s' : Search) : Prop where
  nodes : List.Forall₂ (Node.Alike R) s.arena.nodes.toList s'.arena.nodes.toList
  frontier_eq : s.frontier = s'.frontier
  visited_eq : s.visited = s'.visited
  expansions_eq : s.expansions = s'.expansions
  edges : ∀ edges edges', s.edges = some edges → s'.edges = some edges' →
    List.Forall₂ (TreeEdge.Alike R) edges.toList edges'.toList

end

variable {R : Action → Action → Prop} {p p' : Problem}

theorem Node.Alike.child {node node' : Node} {step step' : Step} (hnode : node.Alike R node')
    (hstep : step.Alike R step') (hcost : ∀ a a', R a a' → ∀ state, a.cost state = a'.cost state) (id : NodeId) :
    (child id node step).Alike R (child id node' step') where
  action := .some hstep.action
  state_eq := hstep.state_eq
  parent_eq := rfl
  level_eq := congrArg (· + 1) hnode.level_eq
  runningCost_eq := by
    show node.runningCost + step.action.cost node.state = node'.runningCost + step'.action.cost node'.state
    rw [hnode.runningCost_eq, hnode.state_eq, hcost _ _ hstep.action]
  estimate_eq := hstep.estimate_eq

theorem Node.Alike.totalCost_eq {node node' : Node} (h : node.Alike R node') : node.totalCost = node'.totalCost := by
  unfold totalCost
  rw [h.runningCost_eq, h.estimate_eq]

theorem Problem.Alike.steps_unmet (hp : p.Alike R p') {steps steps' : List Step}
    (hsteps : List.Forall₂ (Step.Alike R) steps steps') (h : ∀ step ∈ steps, p.isTarget step.state = false) :
    ∀ step ∈ steps', p'.isTarget step.state = false := by
  induction hsteps with
  | nil => exact fun _ hmem => absurd hmem List.not_mem_nil
  | @cons step step' _ _ hstep _ ih =>
    intro t ht
    rcases List.mem_cons.1 ht with rfl | ht
    · rw [← hstep.state_eq, ← hp.target]
      exact h step List.mem_cons_self
    · exact ih (fun u hu => h u (List.mem_cons_of_mem _ hu)) t ht

namespace Search

variable {s s' t : Search} {earlyExit : Bool}

/-! ## Nodes at the same position -/

theorem Alike.size_eq (h : s.Alike R t) : s.arena.size = t.arena.size := by
  have := h.nodes.length_eq
  rwa [Array.length_toList, Array.length_toList] at this

theorem Alike.nextId_eq (h : s.Alike R t) : s.arena.nextId = t.arena.nextId := congrArg NodeId.mk h.size_eq

theorem Alike.get? (h : s.Alike R t) (id : NodeId) :
    Option.Rel (Node.Alike R) (s.arena.get? id) (t.arena.get? id) := by
  unfold Arena.get?
  rw [← Array.getElem?_toList, ← Array.getElem?_toList]
  exact forall₂_getElem? h.nodes id.index

theorem Alike.get?_eq_none (h : s.Alike R t) {id : NodeId} (hnode : s.arena.get? id = none) :
    t.arena.get? id = none := by
  have := h.get? id
  rw [hnode] at this
  cases hnode' : t.arena.get? id with
  | none => rfl
  | some node' => rw [hnode'] at this; cases this

theorem Alike.exists_get? (h : s.Alike R t) {id : NodeId} {node : Node} (hnode : s.arena.get? id = some node) :
    ∃ node', t.arena.get? id = some node' ∧ node.Alike R node' := by
  have := h.get? id
  rw [hnode] at this
  cases hnode' : t.arena.get? id with
  | none => rw [hnode'] at this; cases this
  | some node' =>
    rw [hnode'] at this
    cases this with
    | some hnodes => exact ⟨node', rfl, hnodes⟩

/-! ## Side by side -/

theorem alike_start (R : Action → Action → Prop) (root : State) (record record' : Bool) :
    (start root record).Alike R (start root record') where
  nodes := .cons ⟨.none, rfl, rfl, rfl, rfl, rfl⟩ .nil
  frontier_eq := rfl
  visited_eq := rfl
  expansions_eq := rfl
  edges edges edges' hedges hedges' := by
    cases record <;> cases record' <;> cases hedges <;> cases hedges'
    exact .nil

theorem Alike.withFrontier (h : s.Alike R t) (frontier : PriorityQueue NodeId) :
    (s.withFrontier frontier).Alike R (t.withFrontier frontier) where
  nodes := h.nodes
  frontier_eq := rfl
  visited_eq := h.visited_eq
  expansions_eq := h.expansions_eq
  edges := h.edges

theorem Alike.visit (h : s.Alike R t) (id : NodeId) (state : State) (children : Nat) :
    (s.visit id state children).Alike R (t.visit id state children) where
  nodes := h.nodes
  frontier_eq := h.frontier_eq
  visited_eq := congrArg (state :: ·) h.visited_eq
  expansions_eq := congrArg (·.push (id, children)) h.expansions_eq
  edges := h.edges

section Children

variable {id : NodeId} {node node' : Node}

theorem Alike.add (h : s.Alike R t) (hnode : node.Alike R node') {step step' : Step} (hstep : step.Alike R step')
    (hcost : ∀ a a', R a a' → ∀ state, a.cost state = a'.cost state) :
    (s.add id node step).Alike R (t.add id node' step') where
  nodes := by
    show List.Forall₂ _ (s.arena.nodes.push _).toList (t.arena.nodes.push _).toList
    rw [Array.toList_push, Array.toList_push]
    exact List.rel_append h.nodes (.cons (hnode.child hstep hcost id) .nil)
  frontier_eq := by
    show s.frontier.enqueue _ _ = t.frontier.enqueue _ _
    rw [h.frontier_eq, h.nextId_eq, (hnode.child hstep hcost id).totalCost_eq]
  visited_eq := h.visited_eq
  expansions_eq := h.expansions_eq
  edges edges edges' hedges hedges' := by
    obtain ⟨old, hold, rfl⟩ := Option.map_eq_some_iff.1 hedges
    obtain ⟨old', hold', rfl⟩ := Option.map_eq_some_iff.1 hedges'
    rw [Array.toList_push, Array.toList_push]
    exact List.rel_append (h.edges old old' hold hold') (.cons ⟨rfl, h.nextId_eq, hstep.action⟩ .nil)

theorem Alike.addSteps (h : s.Alike R t) (hnode : node.Alike R node')
    (hcost : ∀ a a', R a a' → ∀ state, a.cost state = a'.cost state) {steps steps' : List Step}
    (hsteps : List.Forall₂ (Step.Alike R) steps steps') :
    (s.addSteps id node steps).Alike R (t.addSteps id node' steps') := by
  induction hsteps generalizing s t with
  | nil => exact h
  | cons hstep _ ih => exact ih (h.add hnode hstep hcost)

end Children

/-- A round of one search is a round of the other. -/
theorem Round.alike {ending : Option Ending} (hround : Round p earlyExit s s' ending) (hp : p.Alike R p')
    (h : s.Alike R t) : ∃ t', Round p' earlyExit t t' ending ∧ s'.Alike R t' := by
  cases hround with
  | exhausted hpop =>
    rw [h.frontier_eq] at hpop
    exact ⟨t, .exhausted hpop, h⟩
  | unknown hpop hnode =>
    rw [h.frontier_eq] at hpop
    exact ⟨_, .unknown hpop (h.get?_eq_none hnode), h.withFrontier _⟩
  | skipped hpop hnode hvisited =>
    obtain ⟨node', hnode', hnodes⟩ := h.exists_get? hnode
    rw [h.frontier_eq] at hpop
    rw [h.visited_eq, hnodes.state_eq] at hvisited
    exact ⟨_, .skipped hpop hnode' hvisited, h.withFrontier _⟩
  | found hpop hnode hvisited htarget =>
    obtain ⟨node', hnode', hnodes⟩ := h.exists_get? hnode
    rw [h.frontier_eq] at hpop
    rw [h.visited_eq, hnodes.state_eq] at hvisited
    rw [hp.target, hnodes.state_eq] at htarget
    exact ⟨_, .found hpop hnode' hvisited htarget, h.withFrontier _⟩
  | @expanded id frontier node hpop hnode hvisited htarget hnone =>
    obtain ⟨node', hnode', hnodes⟩ := h.exists_get? hnode
    have hsteps := hp.steps node.state
    rw [h.frontier_eq] at hpop
    rw [h.visited_eq, hnodes.state_eq] at hvisited
    rw [hp.target, hnodes.state_eq] at htarget
    refine ⟨_, .expanded hpop hnode' hvisited htarget fun hexit => ?_, ?_⟩
    · rw [← hnodes.state_eq]
      exact hp.steps_unmet hsteps (hnone hexit)
    · rw [hsteps.length_eq, hnodes.state_eq]
      exact ((h.withFrontier frontier).visit id _ _).addSteps hnodes hp.cost (hp.steps _)
  | @reached id frontier node before step after hpop hnode hvisited htarget hsteps hexit hbefore hstep =>
    obtain ⟨node', hnode', hnodes⟩ := h.exists_get? hnode
    have hlength := (hp.steps node.state).length_eq
    have hpsteps := hp.steps node.state
    rw [hsteps] at hpsteps
    obtain ⟨before', step', after', hsteps', hbefores, hstepalike⟩ := exists_of_forall₂_append_cons hpsteps
    rw [h.frontier_eq] at hpop
    rw [h.visited_eq, hnodes.state_eq] at hvisited
    rw [hp.target, hnodes.state_eq] at htarget
    rw [hp.target, hstepalike.state_eq] at hstep
    rw [hnodes.state_eq] at hsteps' hlength
    rw [h.size_eq, hbefores.length_eq, hnodes.state_eq, hlength]
    refine ⟨_, .reached hpop hnode' hvisited htarget hsteps' hexit (hp.steps_unmet hbefores hbefore) hstep, ?_⟩
    exact ((h.withFrontier frontier).visit id _ _).addSteps hnodes hp.cost
      (List.rel_append hbefores (.cons hstepalike .nil))

/-- Alike searches have alike runs, and these end in the same way. -/
theorem run_alike (hp : p.Alike R p') (earlyExit : Bool) (rounds : Nat) (h : s.Alike R t) :
    (run p earlyExit rounds s).ending = (run p' earlyExit rounds t).ending ∧
      (run p earlyExit rounds s).search.Alike R (run p' earlyExit rounds t).search := by
  induction rounds generalizing s t with
  | zero => exact ⟨rfl, h⟩
  | succ rounds ih =>
    obtain ⟨s', ending, hround⟩ := exists_round p earlyExit s
    obtain ⟨t', hround', h'⟩ := hround.alike hp h
    rw [hround.run_eq, hround'.run_eq]
    cases ending with
    | none => exact ih h'
    | some ending => exact ⟨rfl, h'⟩

/-! ## Paths -/

theorem Alike.chainWithin (h : s.Alike R t) (steps : Nat) (id : NodeId) :
    List.Forall₂ (Node.Alike R) (s.arena.chainWithin steps id) (t.arena.chainWithin steps id) := by
  induction steps generalizing id with
  | zero => exact .nil
  | succ steps ih =>
    unfold Arena.chainWithin
    cases hnode : s.arena.get? id with
    | none =>
      rw [h.get?_eq_none hnode]
      exact .nil
    | some node =>
      obtain ⟨node', hnode', hnodes⟩ := h.exists_get? hnode
      rw [hnode']
      show List.Forall₂ _ (node :: _) (node' :: _)
      rw [← hnodes.parent_eq]
      refine .cons hnodes ?_
      cases node.parent with
      | none => exact .nil
      | some parent => exact ih parent

/-- The actions on the way up from a position correspond one by one. -/
theorem Alike.pathActions (h : s.Alike R t) (id : NodeId) :
    List.Forall₂ R (s.arena.pathActions id) (t.arena.pathActions id) :=
  List.rel_filterMap (fun _ _ hnodes => hnodes.action) (h.chainWithin _ id)

end Search

/-- Alike searches that end in the same way both have no plan, or plans whose actions correspond one by one. -/
theorem Outcome.actions?_cases {o o' : Outcome} (hending : o.ending = o'.ending) (h : o.search.Alike R o'.search) :
    o.actions? = none ∧ o'.actions? = none ∨
      ∃ path path', o.actions? = some path ∧ o'.actions? = some path' ∧ List.Forall₂ R path path' := by
  unfold actions?
  rw [← hending]
  cases o.ending.winner? with
  | none => exact .inl ⟨rfl, rfl⟩
  | some id => exact .inr ⟨_, _, rfl, rfl, h.pathActions id⟩

end GoalRegression
