/-
Planning ends. Every owed state of a search binds only what is required somewhere (`Valid.owable`), and there
are finitely many such states up to equality. None is expanded twice, and an expansion makes a child for each
action at most, so the nodes are few enough for the rounds that the search is given (`search_terminates`).
Costs play no part: a priority that falls or is not a number changes the order of the rounds only.
-/
import GoalRegression.Planning.Planner
import GoalRegression.Proofs.Regression.Children
import GoalRegression.Proofs.Regression.Universe
import GoalRegression.Proofs.Search.Outcome

namespace GoalRegression

variable {start goal : State} {actions : ActionSet} {s : Search}

theorem Owable.step {owed : State} (h : Owable goal actions owed) {step : Step}
    (hstep : step ∈ actions.regressions start owed) : Owable goal actions step.state := by
  obtain ⟨hmem, -, hregress, -⟩ := ActionSet.mem_regressions_iff.1 hstep
  exact h.regress? hmem hregress

namespace Search

/-! ## Owed states -/

theorem Valid.owable (h : s.Valid (actions.problem start) goal) {id : NodeId} {node : Node}
    (hnode : s.arena.get? id = some node) : Owable goal actions node.state :=
  h.state_induction (P := Owable goal actions) (owable_goal goal actions)
    (fun _ howable _ hstep => howable.step hstep) hnode

/-- At most as many states are expanded as can be owed. -/
theorem Valid.length_visited_le (h : s.Valid (actions.problem start) goal) :
    s.visited.length ≤ (Requirements.ofGoal goal actions).states.length := by
  refine length_le_of_contains h.distinct fun state hstate => ?_
  obtain ⟨e, -, node, hnode, rfl⟩ := h.exists_expansion hstate
  exact Requirements.mem_states_iff.2 (h.owable hnode)

/-! ## Numbers of nodes and rounds -/

theorem Fits.size_le (h : s.Fits (actions.problem start)) :
    s.arena.size ≤ 1 + actions.size * s.visited.length := by
  have hsum : ∀ visited : List State,
      (visited.map fun state => ((actions.problem start).steps state).length).sum ≤
        actions.size * visited.length := by
    intro visited
    induction visited with
    | nil => exact Nat.zero_le _
    | cons state visited ih =>
      have hstep : ((actions.problem start).steps state).length ≤ actions.size :=
        ActionSet.length_regressions_le
      rw [List.map_cons, List.sum_cons, List.length_cons, Nat.mul_succ]
      omega
  exact Nat.le_trans h (Nat.add_le_add_left (hsum s.visited) 1)

/-- The number of nodes is bounded by the actions and the states that can be owed. -/
theorem Valid.size_le (h : s.Valid (actions.problem start) goal) (hfits : s.Fits (actions.problem start)) :
    s.arena.size ≤ 1 + actions.size * (Requirements.ofGoal goal actions).states.length :=
  Nat.le_trans hfits.size_le (Nat.add_le_add_left (Nat.mul_le_mul_left _ h.length_visited_le) 1)

end Search

namespace RegressivePlanner

variable (planner : RegressivePlanner) (start goal : State) (actions : ActionSet)

theorem valid_search : (planner.search start goal actions).search.Valid (actions.problem start) goal :=
  Search.valid_run ..

theorem fits_search : (planner.search start goal actions).search.Fits (actions.problem start) :=
  Search.size_run_le _ goal _ _ _

/-- The rounds given to a search suffice. -/
theorem ending_search_ne_unfinished : (planner.search start goal actions).ending ≠ .unfinished := by
  intro h
  have hrounds := Search.rounds_le_of_unfinished h
  have hsize := (planner.valid_search start goal actions).size_le (planner.fits_search start goal actions)
  rw [Requirements.length_states] at hsize
  unfold Requirements.rounds at hrounds
  exact absurd (Nat.le_trans hrounds hsize) (by omega)

/-- A search ends by itself: more rounds change nothing. All the states it comes upon can be owed, it expands
none of them twice, and its nodes are no more than one and the actions times the states that can be owed. -/
theorem search_terminates :
    (planner.search start goal actions).ending ≠ .unfinished ∧
    (∀ more, Search.run (actions.problem start) planner.earlyExit
      ((Requirements.ofGoal goal actions).rounds actions + more)
      (Search.start goal planner.createDebugGraph) = planner.search start goal actions) ∧
    (∀ id node, (planner.search start goal actions).search.arena.get? id = some node →
      Owable goal actions node.state ∧
        ∀ step ∈ actions.regressions start node.state, Owable goal actions step.state) ∧
    (∀ e ∈ (planner.search start goal actions).search.expansions.toList,
      ∃ node, (planner.search start goal actions).search.arena.get? e.1 = some node) ∧
    ((planner.search start goal actions).search.expansions.toList.Pairwise fun e e' => ∀ node node',
      (planner.search start goal actions).search.arena.get? e.1 = some node →
      (planner.search start goal actions).search.arena.get? e'.1 = some node' →
      (node.state == node'.state) = false) ∧
    ∃ owable : List State, (owable.Pairwise fun s t => (s == t) = false) ∧
      (∀ s, owable.contains s = true ↔ Owable goal actions s) ∧
      (planner.search start goal actions).search.arena.size ≤ 1 + actions.size * owable.length := by
  have hfinished := planner.ending_search_ne_unfinished start goal actions
  have hvalid := planner.valid_search start goal actions
  refine ⟨hfinished, fun more => Search.run_add_of_finished hfinished more, ?_, ?_, hvalid.expansions_distinct, ?_⟩
  · intro id node hnode
    exact ⟨hvalid.owable hnode, fun step hstep => (hvalid.owable hnode).step hstep⟩
  · intro e he
    obtain ⟨node, hnode, -⟩ := hvalid.exists_of_mem_expansions he
    exact ⟨node, hnode⟩
  · refine ⟨(Requirements.ofGoal goal actions).states, Requirements.states_distinct goal actions,
      fun _ => Requirements.mem_states_iff, ?_⟩
    exact hvalid.size_le (planner.fits_search start goal actions)

end RegressivePlanner

end GoalRegression
