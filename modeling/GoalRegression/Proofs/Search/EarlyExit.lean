/-
A search with early exit beside one without. While no node is a target, both do the same rounds. The first
target among the children of a node ends the one in the middle of the expansion, and the other goes on from the
nodes made so far (`run_true_cases`). So a search with early exit either is the search without it, and neither
comes upon a target, or it stops at the first node that is a target, and its nodes are a beginning of those of
the other (`run_start_cases`).
-/
import GoalRegression.Proofs.Search.Record

namespace GoalRegression

/-- The search ended with the node at position `k` for a winner. That is its last node, and the only target. -/
structure Outcome.StopsAt (p : Problem) (o : Outcome) (k : Nat) : Prop where
  winner : o.ending.winner? = some ⟨k⟩
  size_eq : o.search.arena.size = k + 1
  target_iff : ∀ id node, o.search.arena.get? id = some node → (p.isTarget node.state = true ↔ id = ⟨k⟩)

namespace Search

variable {p : Problem} {root : State} {s : Search}

/-- No node is a target. -/
def Unmet (p : Problem) (s : Search) : Prop :=
  ∀ id node, s.arena.get? id = some node → p.isTarget node.state = false

theorem Unmet.addSteps (h : s.Unmet p) {id : NodeId} {node : Node} {steps : List Step}
    (hsteps : ∀ step ∈ steps, p.isTarget step.state = false) : (s.addSteps id node steps).Unmet p := by
  intro new n hn
  rcases get?_addSteps hn with hn | ⟨-, step, hstep, rfl, -⟩
  · exact h new n hn
  · exact hsteps step hstep

theorem Unmet.stopsAt (h : s.Unmet p) (id : NodeId) (node : Node) {step : Step}
    (hstep : p.isTarget step.state = true) :
    Outcome.StopsAt p ⟨s.add id node step, .reached s.arena.nextId⟩ s.arena.size where
  winner := rfl
  size_eq := Arena.size_push ..
  target_iff new n hn := by
    rw [get?_add] at hn
    split at hn
    · next hnew =>
      cases hn
      exact iff_of_true hstep (congrArg NodeId.mk hnew)
    · next hnew =>
      rw [h new n hn]
      exact iff_of_false (by decide) fun heq => hnew (congrArg NodeId.index heq)

/-- From a search without a target, early exit changes nothing and no target turns up, or it stops the search at
a target, and without it the search has the same nodes and more. -/
theorem run_true_cases (hs : s.Unmet p) (rounds : Nat) :
    run p true rounds s = run p false rounds s ∧ (run p false rounds s).search.Unmet p ∧
        (run p false rounds s).ending.winner? = none ∨
      ∃ k, (run p true rounds s).StopsAt p k ∧
        (run p true rounds s).search.Extends (run p false rounds s).search := by
  induction rounds generalizing s with
  | zero => exact .inl ⟨rfl, hs, rfl⟩
  | succ rounds ih =>
    obtain ⟨s', ending, hround⟩ := exists_round p false s
    have hfalse := hround.run_eq rounds
    -- the search with early exit does the same round, unless the round makes a target
    cases hround with
    | exhausted hpop =>
      have hround : Round p true s s _ := .exhausted hpop
      rw [hround.run_eq, hfalse]
      exact .inl ⟨rfl, hs, rfl⟩
    | @unknown id frontier hpop hnode =>
      have hround : Round p true s (s.withFrontier frontier) _ := .unknown hpop hnode
      rw [hround.run_eq, hfalse]
      exact ih hs
    | @skipped id frontier node hpop hnode hvisited =>
      have hround : Round p true s (s.withFrontier frontier) _ := .skipped hpop hnode hvisited
      rw [hround.run_eq, hfalse]
      exact ih hs
    | found _ hnode _ htarget =>
      rw [hs _ _ hnode] at htarget
      cases htarget
    | reached _ _ _ _ _ hexit => cases hexit
    | @expanded id frontier node hpop hnode hvisited htarget =>
      have hvisit : ((s.withFrontier frontier).visit id node.state (p.steps node.state).length).Unmet p := hs
      rcases addAll_cases p.isTarget true id node s (p.steps node.state) with
        ⟨-, hnone⟩ | ⟨before, step, after, hsteps, hexit, hbefore, hstep, -⟩
      · rw [(Round.expanded hpop hnode hvisited htarget hnone).run_eq, hfalse]
        exact ih (hvisit.addSteps (hnone rfl))
      · rw [(Round.reached hpop hnode hvisited htarget hsteps hexit hbefore hstep).run_eq, hfalse]
        refine .inr ⟨s.arena.size + before.length, ?_, fun new n hn => ?_⟩
        · have hunmet : (((s.withFrontier frontier).visit id node.state (p.steps node.state).length).addSteps id node
              before).Unmet p := hvisit.addSteps hbefore
          have hstops := hunmet.stopsAt id node hstep
          rw [Arena.nextId, size_addSteps] at hstops
          rw [addSteps_append]
          exact hstops
        · -- without early exit the children behind the target are added too, and the search goes on
          refine run_extends rounds _ new n ?_
          have hsplit : p.steps node.state = (before ++ [step]) ++ after := by simp [hsteps]
          generalize (p.steps node.state).length = children at hn ⊢
          rw [hsplit, addSteps_append]
          exact get?_addSteps_of_some hn

/-- Early exit changes nothing and no target turns up, or it stops the search at a target, and without it the
search has the same nodes and more. -/
theorem run_start_cases (p : Problem) (root : State) (record : Bool) (rounds : Nat) :
    run p true (rounds + 1) (start root record) = run p false (rounds + 1) (start root record) ∧
        (run p false (rounds + 1) (start root record)).search.Unmet p ∧
        (run p false (rounds + 1) (start root record)).ending.winner? = none ∨
      ∃ k, (run p true (rounds + 1) (start root record)).StopsAt p k ∧
        (run p true (rounds + 1) (start root record)).search.Extends
          (run p false (rounds + 1) (start root record)).search := by
  cases htarget : p.isTarget root with
  | false =>
    refine run_true_cases (fun id node hnode => ?_) (rounds + 1)
    rw [(get?_start hnode).2]
    exact htarget
  | true =>
    obtain ⟨frontier, hrun⟩ := run_start_of_isTarget htarget record rounds
    rw [hrun, hrun]
    refine .inr ⟨0, ⟨rfl, rfl, fun id node hnode => ?_⟩, fun _ _ hnode => hnode⟩
    have hnode : (start root record).arena.get? id = some node := hnode
    obtain ⟨rfl, rfl⟩ := get?_start hnode
    exact iff_of_true htarget rfl

end Search

end GoalRegression
