/-
A plan is found whenever there is one. What is owed before a sequence that achieves the goal descends from the
goal, by induction on the sequence from its end: before one more action stands what stood before or a step from
it (`exists_descends_owedBefore`). The start provides what is owed before a sequence run from it. So a target
descends from the goal, and a search that ends by itself then has a winner.
-/
import GoalRegression.Proofs.Planning.Soundness
import GoalRegression.Proofs.Planning.Termination
import GoalRegression.Proofs.Search.Coverage

namespace GoalRegression

variable {start goal : State} {actions : ActionSet}

theorem ActionSet.congruent_problem : (actions.problem start).Congruent where
  target _ _ heq := State.isSuperstateOf_congr BEq.rfl heq
  steps _ _ heq _ hstep := ActionSet.regressions_congr heq hstep

theorem ActionSet.mem_ofCatalog_iff {catalog : List Action} {a : Action} :
    a ∈ (ActionSet.ofCatalog catalog).actions ↔ a ∈ catalog ∧ a.valid = true := by
  show a ∈ (catalog.filter (·.valid)).toArray ↔ _
  rw [List.mem_toArray, List.mem_filter]

/-- What is owed before a sequence that achieves the goal descends from the goal. -/
theorem exists_descends_owedBefore (hdefaults : DefaultsAgree goal actions) (start : State) {as : List Action}
    {s : State} (hmem : ∀ a ∈ as, a ∈ actions.actions) (h : Achieves s goal as) :
    ∃ path, (actions.problem start).Descends goal (owedBefore goal as) path := by
  induction as generalizing s with
  | nil => exact ⟨[], .root⟩
  | cons a rest ih =>
    obtain ⟨path, hrest⟩ := ih (fun b hb => hmem b (List.mem_cons_of_mem _ hb)) (achieves_cons_iff.1 h).2
    rcases owedBefore_cons hdefaults hmem (hmem a List.mem_cons_self) h start with
      ⟨-, heq⟩ | ⟨-, step, hstep, -, hstate, -⟩
    · rw [heq]
      exact ⟨path, hrest⟩
    · rw [← hstate]
      exact ⟨_, hrest.step hstep⟩

namespace RegressivePlanner

variable {planner : RegressivePlanner}

/-- A search that some sequence could have satisfied ends with a winner. -/
theorem exists_winner (hdefaults : DefaultsAgree goal actions) {as : List Action}
    (hmem : ∀ a ∈ as, a ∈ actions.actions) (h : Achieves start goal as) :
    ∃ id, (planner.search start goal actions).ending.winner? = some id := by
  obtain ⟨path, hdescends⟩ := exists_descends_owedBefore hdefaults start hmem h
  exact (Search.exists_winner_iff ActionSet.congruent_problem (planner.ending_search_ne_unfinished start goal
    actions)).2 ⟨_, path, hdescends, (owedBefore_spec hdefaults hmem h).2⟩

/-- Unless a variable is required at two unequal defaults, planning succeeds exactly when some sequence of
the actions achieves the goal from the start. -/
theorem isSuccess_iff_achievable (planner : RegressivePlanner) (start goal : State) (actions : ActionSet)
    (hdefaults : DefaultsAgree goal actions) :
    (planner.plan start goal actions).isSuccess = true ↔
      ∃ as : List Action, (∀ a ∈ as, a ∈ actions.actions) ∧ Achieves start goal as := by
  unfold PlanningResult.isSuccess
  rw [Option.isSome_iff_exists]
  constructor
  · rintro ⟨plan, hplan⟩
    obtain ⟨id, node, -, hnode, htarget, rfl⟩ := exists_node_of_plan hplan
    have hdescends := (planner.valid_search start goal actions).descends hnode
    exact ⟨_, hdescends.mem_actions, (hdescends.isSuperstateOf_iff start).1 htarget⟩
  · rintro ⟨as, hmem, h⟩
    obtain ⟨id, hid⟩ := exists_winner hdefaults hmem h
    exact ⟨_, congrArg (Option.map _) hid⟩

end RegressivePlanner

namespace Kitchen

/-- The kitchen requires no variable at two unequal defaults, and cooking once too often does no harm. -/
theorem isSuccess_iff_achievable_kitchen :
    DefaultsAgree wanted catalog ∧ (RegressivePlanner.plan ⟨true, false⟩ world wanted catalog).isSuccess = true := by
  have hdefaults : DefaultsAgree wanted catalog := by decide +kernel
  refine ⟨hdefaults, (RegressivePlanner.isSuccess_iff_achievable ⟨true, false⟩ world wanted catalog hdefaults).2
    ⟨[cook, cook, eat], fun a ha => ActionSet.mem_ofCatalog_iff.2 ?_, by decide +kernel⟩⟩
  simp only [List.mem_cons, List.not_mem_nil, or_false] at ha
  rcases ha with rfl | rfl | rfl
  · exact ⟨by simp, rfl⟩
  · exact ⟨by simp, rfl⟩
  · exact ⟨by simp, rfl⟩

end Kitchen

end GoalRegression
