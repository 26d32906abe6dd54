/-
The cost of a plan, in the two ways in which it comes about: running the plan adds the costs up from its first action
to its last (`PlanningResult.costFrom_eq_foldl`), the search that found it added them up from the last to the first
(`Search.Valid.runningCost_eq`). If no action's cost depends on the state, the costs added up are the same ones, and
the two sums differ by rounding only (`RegressivePlanner.totalCost_eq_runningCost`).
-/
import GoalRegression.Proofs.Binary.Extended
import GoalRegression.Proofs.Planning.Cost

namespace GoalRegression

/-- The action costs the same from every state. -/
def Action.Constant (a : Action) : Prop := ∀ s t, a.cost s = a.cost t

variable {start goal : State} {actions : ActionSet} {plan : List Action}

/-- From whatever state the actions are run, their costs are those from the start. -/
theorem PlanningResult.costFrom_eq_foldl (hconstant : ∀ a ∈ plan, a.Constant) (sum : Binary32) (start s : State) :
    costFrom sum s plan = (plan.map (·.cost start)).foldl (· + ·) sum := by
  induction plan generalizing sum s with
  | nil => rfl
  | cons a rest ih =>
    obtain ⟨ha, hrest⟩ := List.forall_mem_cons.1 hconstant
    rw [costFrom, List.map_cons, List.foldl_cons, ih hrest, ha s start]

/-- A node costs what the actions on its path cost, added up from the root on. -/
theorem Search.Valid.runningCost_eq {search : Search} (hvalid : search.Valid (actions.problem start) goal)
    (hconstant : ∀ a ∈ actions.actions, a.Constant) {id : NodeId} {node : Node}
    (hnode : search.arena.get? id = some node) :
    node.runningCost = ((search.arena.pathActions id).map (·.cost start)).reverse.foldl (· + ·) 0 := by
  refine hvalid.path_induction
    (P := fun _ node path => node.runningCost = (path.map (·.cost start)).reverse.foldl (· + ·) 0) rfl ?_ hnode
  rintro id parentId parent step - - hstep hcost
  have hmem := (ActionSet.mem_regressions_iff.1 hstep).1
  rw [List.map_cons, List.reverse_cons, List.foldl_append, ← hcost, hconstant _ hmem start parent.state]
  rfl

namespace RegressivePlanner

/-- If no action's cost depends on the state, the cost of a plan from every state is the sum of the actions' costs from
the first to the last, and what the node that won has run up is their sum from the last to the first. If the additions
of neither sum round, the two are the same number, which is what the costs come to. -/
theorem totalCost_eq_runningCost (planner : RegressivePlanner) (start goal : State) (actions : ActionSet)
    (hconstant : ∀ a ∈ actions.actions, a.Constant) (plan : List Action)
    (hplan : (planner.plan start goal actions).plan = some plan) :
    ∃ id node, (planner.search start goal actions).ending.winner? = some id ∧
      (planner.search start goal actions).search.arena.get? id = some node ∧
      (∀ s, (planner.plan start goal actions).totalCost? s = some ((plan.map (·.cost start)).foldl (· + ·) 0)) ∧
      node.runningCost = (plan.map (·.cost start)).reverse.foldl (· + ·) 0 ∧
      (Binary.SumsExactly 0 (plan.map (·.cost start)) → Binary.SumsExactly 0 (plan.map (·.cost start)).reverse →
        (∀ s, (planner.plan start goal actions).totalCost? s = some node.runningCost) ∧
          node.runningCost.exact = (plan.map fun a => (a.cost start).exact).sum) := by
  obtain ⟨id, node, hwinner, hnode, -, rfl⟩ := exists_node_of_plan hplan
  have hvalid := planner.valid_search start goal actions
  have hmem := (hvalid.descends hnode).mem_actions
  have hrunning := hvalid.runningCost_eq hconstant hnode
  have htotal (s : State) := congrArg some <|
    PlanningResult.costFrom_eq_foldl (fun a ha => hconstant a (hmem a ha)) 0 start s
  have hresult (s : State) : (planner.plan start goal actions).totalCost? s =
      some (PlanningResult.costFrom 0 s ((planner.search start goal actions).search.arena.pathActions id)) := by
    rw [PlanningResult.totalCost?, hplan]
    rfl
  refine ⟨id, node, hwinner, hnode, fun s => (hresult s).trans (htotal s), hrunning, fun hforward hbackward => ?_⟩
  have hsame := Binary.foldl_add_eq_of_perm (List.reverse_perm _) hbackward hforward
  refine ⟨fun s => ?_, ?_⟩
  · rw [hresult, htotal, hrunning, hsame]
  · have hzero : (0 : Binary32).exact = 0 := Binary.exact_zero false
    rw [hrunning, hsame, Binary.exact_foldl_add hforward, List.map_map, hzero, zero_add]
    rfl

end RegressivePlanner

namespace Workshop

/-- Getting the tools ready has a rule for its cost, but always the same. -/
def fixedPrices : ActionSet :=
  .ofCatalog [reach "finish" tools (.ofInt 2), { prepare with costRule := some fun _ => 1 / .ofInt 4 }]

def fixedPlan : List Action := ((RegressivePlanner.plan ⟨true, false⟩ .empty wanted fixedPrices).plan).getD []

theorem fixedPlan_eq : (RegressivePlanner.plan ⟨true, false⟩ .empty wanted fixedPrices).plan = some fixedPlan :=
  PlanningResult.plan_eq_some_getD (by decide +kernel)

theorem constant_fixedPrices : ∀ a ∈ fixedPrices.actions, a.Constant := by
  intro a ha
  have hmem := (ActionSet.mem_ofCatalog_iff.1 ha).1
  simp only [List.mem_cons, List.not_mem_nil, or_false] at hmem
  rcases hmem with rfl | rfl <;> exact fun _ _ => rfl

/-- Two and a quarter, from every state. -/
theorem totalCost_eq_runningCost_fixed :
    fixedPlan.map (·.name) = ["prepare", "finish"] ∧
      ∃ id node, (RegressivePlanner.search ⟨true, false⟩ .empty wanted fixedPrices).ending.winner? = some id ∧
        (RegressivePlanner.search ⟨true, false⟩ .empty wanted fixedPrices).search.arena.get? id = some node ∧
        (∀ s, (RegressivePlanner.plan ⟨true, false⟩ .empty wanted fixedPrices).totalCost? s = some node.runningCost) ∧
        node.runningCost.exact = .rational (9 / 4) := by
  obtain ⟨id, node, hwinner, hnode, -, -, hexact⟩ :=
    RegressivePlanner.totalCost_eq_runningCost ⟨true, false⟩ .empty wanted fixedPrices constant_fixedPrices fixedPlan
      fixedPlan_eq
  obtain ⟨htotal, hsum⟩ := hexact (by decide +kernel) (by decide +kernel)
  exact ⟨by decide +kernel, id, node, hwinner, hnode, htotal, hsum.trans (by decide +kernel)⟩

end Workshop

end GoalRegression
