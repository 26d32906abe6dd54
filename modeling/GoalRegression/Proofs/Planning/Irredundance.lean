/-
Plans do not begin with something dispensable. An end of a plan is the path of a node that was expanded
(`Search.ParentsExpanded.exists_of_drop`). The start does not provide the state of such a node, for otherwise the
search had ended there, and so running that end alone does not achieve the goal (`not_achieves_drop`).
-/
import GoalRegression.Proofs.Planning.Completeness
import GoalRegression.Proofs.Search.Ancestors

namespace GoalRegression

variable {start goal : State} {actions : ActionSet} {id : NodeId} {node : Node}

namespace RegressivePlanner

variable (planner : RegressivePlanner)

theorem parentsExpanded_search (start goal : State) (actions : ActionSet) :
    (planner.search start goal actions).search.ParentsExpanded :=
  Search.parentsExpanded_run _ goal _ _ _

/-- Of the path of a node, no end short of the whole achieves the goal. -/
theorem not_achieves_drop (hnode : (planner.search start goal actions).search.arena.get? id = some node) {i : Nat}
    (hpos : 0 < i) (hi : i ≤ ((planner.search start goal actions).search.arena.pathActions id).length) :
    ¬ Achieves start goal (((planner.search start goal actions).search.arena.pathActions id).drop i) := by
  have hvalid := planner.valid_search start goal actions
  obtain ⟨above, n, hexpanded, habove, hpath⟩ :=
    (planner.parentsExpanded_search start goal actions).exists_of_drop hvalid hnode hpos hi
  rw [← hpath, ← (hvalid.descends habove).isSuperstateOf_iff start, Bool.not_eq_true]
  exact hvalid.refused n.state (hvalid.mem_visited_of_expanded hexpanded habove)

/-- On the way from a node that the start provides to the goal no owed state comes twice. -/
theorem owed_distinct (hnode : (planner.search start goal actions).search.arena.get? id = some node)
    (hmet : start.isSuperstateOf node.state = true) :
    (((planner.search start goal actions).search.arena.chain id).map (·.state)).Pairwise
      fun a b => (a == b) = false := by
  have hvalid := planner.valid_search start goal actions
  refine (planner.parentsExpanded_search start goal actions).chain_distinct hvalid hnode ?_
  intro above n hexpanded _ hn
  have hunvisited := hvalid.contains_eq_false_of_isTarget ActionSet.congruent_problem hmet
  rw [← Bool.not_eq_true]
  intro heq
  rw [List.contains_iff_exists_mem_beq.2 ⟨n.state, hvalid.mem_visited_of_expanded hexpanded hn, heq⟩] at hunvisited
  cases hunvisited

/-- Nothing has to be done exactly where the goal holds already. -/
theorem plan_eq_nil_iff (start goal : State) (actions : ActionSet) :
    (planner.plan start goal actions).plan = some [] ↔ start.isSuperstateOf goal = true := by
  have hvalid := planner.valid_search start goal actions
  constructor
  · intro h
    obtain ⟨id, node, -, hnode, hmet, hpath⟩ := exists_node_of_plan h
    have hdescends := hvalid.descends hnode
    rw [← hpath] at hdescends
    exact achieves_nil_iff.1 ((hdescends.isSuperstateOf_iff start).1 hmet)
  · intro h
    have htarget : (actions.problem start).isTarget goal = true := h
    obtain ⟨frontier, hrun⟩ := Search.run_start_of_isTarget htarget planner.createDebugGraph
      (actions.size * (Requirements.ofGoal goal actions).stateCount + 1)
    have hwinner : (planner.search start goal actions).ending.winner? = some ⟨0⟩ :=
      congrArg (·.ending.winner?) (hrun planner.earlyExit)
    exact (congrArg (Option.map _) hwinner).trans (congrArg some hvalid.pathActions_root)

/-- A plan without its first actions, however many, meets an unsatisfied precondition on the way from the start or
does not end where the goal holds. The states owed along the plan, one more than its actions, are pairwise unequal.
The plan is empty exactly if the goal holds at the start. -/
theorem plan_has_no_dispensable_beginning (start goal : State) (actions : ActionSet) :
    (∀ plan, (planner.plan start goal actions).plan = some plan →
      (∀ i, 0 < i → i ≤ plan.length → runnable start (plan.drop i) = false ∨
        (PlanningResult.finalState start (plan.drop i)).isSuperstateOf goal = false) ∧
      ∃ id, (planner.search start goal actions).ending.winner? = some id ∧
        plan = (planner.search start goal actions).search.arena.pathActions id ∧
        ((planner.search start goal actions).search.arena.chain id).length = plan.length + 1 ∧
        (((planner.search start goal actions).search.arena.chain id).map (·.state)).Pairwise
          fun a b => (a == b) = false) ∧
    ((planner.plan start goal actions).plan = some [] ↔ start.isSuperstateOf goal = true) := by
  refine ⟨fun plan hplan => ?_, planner.plan_eq_nil_iff start goal actions⟩
  obtain ⟨id, node, hid, hnode, hmet, rfl⟩ := exists_node_of_plan hplan
  refine ⟨fun i hpos hi => ?_, id, hid, rfl, ?_, planner.owed_distinct hnode hmet⟩
  · have hends := planner.not_achieves_drop hnode hpos hi
    rw [Achieves, not_and_or, Bool.not_eq_true, Bool.not_eq_true] at hends
    exact hends
  · exact (planner.valid_search start goal actions).length_chain hnode

end RegressivePlanner

/-! ## Nothing to spare in the kitchen -/

namespace Kitchen

/-- Eating is not enough without cooking first, and doing nothing is not enough either. -/
theorem plan_has_no_dispensable_beginning_kitchen :
    plan.map (·.name) = ["cook", "eat"] ∧
      (RegressivePlanner.plan ⟨false, true⟩ world wanted catalog).plan = some plan ∧
      (∀ i, 0 < i → i ≤ plan.length → runnable world (plan.drop i) = false ∨
        (PlanningResult.finalState world (plan.drop i)).isSuperstateOf wanted = false) ∧
      (RegressivePlanner.plan ⟨false, true⟩ world world catalog).plan = some [] := by
  obtain ⟨hends, -⟩ := (RegressivePlanner.plan_has_no_dispensable_beginning ⟨false, true⟩ world wanted catalog).1
    plan plan_eq
  have hnothing := (RegressivePlanner.plan_has_no_dispensable_beginning ⟨false, true⟩ world world catalog).2.2
    (by decide +kernel)
  exact ⟨by decide +kernel, plan_eq, hends, hnothing⟩

end Kitchen

end GoalRegression
