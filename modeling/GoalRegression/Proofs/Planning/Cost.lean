/-
What a plan costs that is found without early exit, against every other sequence that achieves the goal. The
estimate that steers the search may fall by more than an action costs, and where it does (`overrun`), or where
some of it is left at the end (`owedEstimate`), a cheaper rival can be passed over, and so it can within the
width of a bucket (`Search.bucketLoss`). By no more than these a rival is cheaper than the plan
(`planCost_le_of_rival`): the priced route of the search that a rival makes up is `route_of_achieves`.
-/
import GoalRegression.Proofs.Planning.Completeness
import GoalRegression.Proofs.Search.Cheapest

namespace GoalRegression

/-! ## Buckets -/

theorem le_foldr_max {x : ℚ} {xs : List ℚ} (h : x ∈ xs) : x ≤ xs.foldr max 0 := by
  induction xs with
  | nil => cases h
  | cons y xs ih =>
    rcases List.mem_cons.1 h with rfl | h
    · exact le_max_left _ _
    · exact le_trans (ih h) (le_max_right _ _)

theorem foldr_max_le {b : ℚ} (hb : 0 ≤ b) {xs : List ℚ} (h : ∀ x ∈ xs, x ≤ b) : xs.foldr max 0 ≤ b := by
  induction xs with
  | nil => exact hb
  | cons y xs ih =>
    exact max_le (h y List.mem_cons_self) (ih fun x hx => h x (List.mem_cons_of_mem _ hx))

theorem foldr_max_nonneg (xs : List ℚ) : 0 ≤ xs.foldr max 0 := by
  induction xs with
  | nil => exact le_refl 0
  | cons y xs ih => exact le_trans ih (le_max_right _ _)

namespace Search

/-- By how much the priority of a node exceeds the thousandth of its bucket, at the most. -/
def bucketLoss (s : Search) : ℚ :=
  (s.arena.nodes.toList.map fun node => node.totalCost.toRat - (bucket node.totalCost : ℚ) / 1000).foldr max 0

variable {s : Search}

theorem buckets_bucketLoss (hnonneg : ∀ node ∈ s.arena.nodes, 0 ≤ node.totalCost.toRat) :
    s.Buckets s.bucketLoss := by
  intro id node id' node' hnode hnode' hle
  have hmem : node ∈ s.arena.nodes := Array.mem_of_getElem? hnode
  have hloss : node.totalCost.toRat - (bucket node.totalCost : ℚ) / 1000 ≤ s.bucketLoss :=
    le_foldr_max (List.mem_map.2 ⟨node, Array.mem_toList_iff.2 hmem, rfl⟩)
  have hbucket := bucket_le (hnonneg node' (Array.mem_of_getElem? hnode'))
  have hcast : (bucket node.totalCost : ℚ) ≤ bucket node'.totalCost := by exact_mod_cast hle
  linarith

/-- The loss is a thousandth at the most if the priorities are in the range of the buckets. -/
theorem bucketLoss_le (hnonneg : ∀ node ∈ s.arena.nodes, 0 ≤ node.totalCost.toRat)
    (hrange : ∀ node ∈ s.arena.nodes, node.totalCost.toRat * 1000 < 2 ^ 63) : s.bucketLoss ≤ 1 / 1000 := by
  refine foldr_max_le (by norm_num) fun x hx => ?_
  obtain ⟨node, hmem, rfl⟩ := List.mem_map.1 hx
  have hmem := Array.mem_toList_iff.1 hmem
  have := toRat_lt_bucket (hnonneg node hmem) (hrange node hmem)
  linarith

/-- There is no loss if the priorities are whole thousandths in that range. -/
theorem bucketLoss_eq_zero
    (hwhole : ∀ node ∈ s.arena.nodes, ∃ n : ℕ, n < 2 ^ 63 ∧ node.totalCost.toRat * 1000 = n) :
    s.bucketLoss = 0 := by
  refine le_antisymm (foldr_max_le (le_refl 0) fun x hx => ?_) (foldr_max_nonneg _)
  obtain ⟨node, hmem, rfl⟩ := List.mem_map.1 hx
  obtain ⟨n, hn, heq⟩ := hwhole node (Array.mem_toList_iff.1 hmem)
  rw [bucket_eq_of_thousandths heq hn, Int.cast_natCast, ← heq]
  linarith

end Search

/-! ## Costs and estimates along a sequence -/

/-- The action costs the same from every state, finitely much and not less than nothing. -/
def Action.Static (a : Action) : Prop :=
  a.costRule.isNone = true ∧ a.baseCost.isFinite = true ∧ a.baseCost.lt 0 = false

instance (a : Action) : Decidable a.Static := inferInstanceAs (Decidable (_ ∧ _))

/-- The sum of the costs. -/
def planCost : List Action → ℚ
  | [] => 0
  | a :: rest => a.baseCost.toRat + planCost rest

/-- The estimate that the search has for what is owed before the actions. It has none for the goal. -/
def owedEstimate (start goal : State) : List Action → ℚ
  | [] => 0
  | a :: rest =>
    if a.touches (owedBefore goal rest) then ((owedBefore goal (a :: rest)).distanceTo start true).toRat
    else owedEstimate start goal rest

/-- By how much the estimate falls, on the way back through the actions, in excess of what they cost. -/
def overrun (start goal : State) : List Action → ℚ
  | [] => 0
  | a :: rest =>
    overrun start goal rest +
      max 0 (owedEstimate start goal rest - a.baseCost.toRat - owedEstimate start goal (a :: rest))

variable {start goal s : State} {actions : ActionSet}

theorem Action.Static.cost_eq {a : Action} (h : a.Static) (s : State) : a.cost s = a.baseCost := by
  unfold Action.cost
  rw [Option.isNone_iff_eq_none.1 h.1]

theorem Action.Static.cost_nonneg {a : Action} (h : a.Static) : 0 ≤ a.baseCost.toRat := by
  obtain ⟨-, hfinite, hlt⟩ := h
  rw [Binary.toRat_nonneg_iff]
  cases hcost : a.baseCost with
  | nan => rw [hcost] at hfinite; cases hfinite
  | infinity => rw [hcost] at hfinite; cases hfinite
  | finite negative units fits =>
    rw [hcost] at hlt
    have hzero : (0 : Binary32).isNaN = false ∧ (0 : Binary32).rank = 0 := ⟨rfl, rfl⟩
    have hnan : (Binary.finite negative units fits).isNaN = false := rfl
    simpa [Binary.lt, hnan, hzero] using hlt

/-- With static costs the problem of planning is lawful. -/
theorem ActionSet.lawful_problem (hstatic : ∀ a ∈ actions.actions, a.Static) :
    (actions.problem start).Lawful where
  toCongruent := ActionSet.congruent_problem
  cost_congr s t _ step hstep := by
    have := hstatic step.action (ActionSet.mem_regressions_iff.1 hstep).1
    rw [this.cost_eq, this.cost_eq]
  estimate_congr s t step hstep step' hstep' heq := by
    rw [(ActionSet.mem_regressions_iff.1 hstep).2.2.2, (ActionSet.mem_regressions_iff.1 hstep').2.2.2,
      State.distanceTo_congr_left heq]
  cost_nonneg s step hstep := by
    have := hstatic step.action (ActionSet.mem_regressions_iff.1 hstep).1
    rw [this.cost_eq]
    exact this.cost_nonneg
  estimate_nonneg s step hstep := by
    rw [(ActionSet.mem_regressions_iff.1 hstep).2.2.2]
    exact State.distanceTo_nonneg _ _

/-! ## Rivals are routes -/

theorem max_le_add_max {cost loss before after : ℚ} (hloss : 0 ≤ loss) :
    max (cost + loss) (before - after) ≤ cost + max 0 (before - cost - after) + loss := by
  have hzero := le_max_left 0 (before - cost - after)
  have hfall := le_max_right 0 (before - cost - after)
  exact max_le (by linarith) (by linarith)

/-- A sequence that achieves the goal is a route of the search, at a price that exceeds its cost by the overrun
and a loss for each action at the most. -/
theorem route_of_achieves {used : ActionSet} (hstatic : ∀ a ∈ actions.actions, a.Static)
    (hdefaults : DefaultsAgree goal used) {loss : ℚ} (hloss : 0 ≤ loss) {as : List Action}
    (hused : ∀ a ∈ as, a ∈ used.actions) (hmem : ∀ a ∈ as, a ∈ actions.actions) (h : Achieves s goal as) :
    ∃ price, (actions.problem start).Route goal loss (owedBefore goal as) price (owedEstimate start goal as) ∧
      price ≤ planCost as + overrun start goal as + as.length * loss := by
  -- the rival is taken from its end, as the search does
  induction as generalizing s with
  | nil => exact ⟨0, .root, by simp [planCost, overrun]⟩
  | cons a rest ih =>
    obtain ⟨price, hroute, hprice⟩ := ih (fun b hb => hused b (List.mem_cons_of_mem a hb))
      (fun b hb => hmem b (List.mem_cons_of_mem a hb)) (achieves_cons_iff.1 h).2
    have hfirst := hmem a List.mem_cons_self
    have ha := hstatic a hfirst
    have hbound : ∀ more, more ≤ a.baseCost.toRat + max 0 (owedEstimate start goal rest - a.baseCost.toRat -
          owedEstimate start goal (a :: rest)) + loss →
        price + more ≤
          planCost (a :: rest) + overrun start goal (a :: rest) + (a :: rest).length * loss := by
      intro more hmore
      rw [planCost, overrun, List.length_cons]
      push_cast
      linarith
    rcases owedBefore_cons hdefaults hused hfirst h start with
      ⟨htouch, howed⟩ | ⟨htouch, step, hstep, rfl, hstate, hest⟩
    · -- the route stays where it is
      have hestimate : owedEstimate start goal (a :: rest) = owedEstimate start goal rest := by
        rw [owedEstimate, htouch, if_neg (by decide)]
      have hnothing := hbound 0 (by
        have := ha.cost_nonneg
        have := le_max_left 0 (owedEstimate start goal rest - a.baseCost.toRat -
          owedEstimate start goal (a :: rest))
        linarith)
      rw [add_zero] at hnothing
      rw [howed, hestimate]
      exact ⟨price, hroute, hnothing⟩
    · -- the route takes the step, and its price the cost of it or the fall of the estimate
      have hestimate : owedEstimate start goal (step.action :: rest) = step.estimate.toRat := by
        rw [owedEstimate, htouch, if_pos rfl, hest]
      have hnext := hroute.step hstep
      rw [hstate, ha.cost_eq, ← hestimate] at hnext
      exact ⟨_, hnext, hbound _ (max_le_add_max hloss)⟩

/-! ## Nodes are plans -/

/-- A node costs what the actions on its path cost, in the state owed before them and with its estimate. -/
theorem Search.Valid.cost_of_node {search : Search} (hvalid : search.Valid (actions.problem start) goal)
    (hexact : search.ExactSums) (hstatic : ∀ a ∈ actions.actions, a.Static) {id : NodeId} {node : Node}
    (hnode : search.arena.get? id = some node) :
    node.runningCost.toRat = planCost (search.arena.pathActions id) ∧
      owedBefore goal (search.arena.pathActions id) = node.state ∧
      node.estimate.toRat = owedEstimate start goal (search.arena.pathActions id) := by
  refine hvalid.path_induction (P := fun _ node path => node.runningCost.toRat = planCost path ∧
    owedBefore goal path = node.state ∧ node.estimate.toRat = owedEstimate start goal path) ?_ ?_ hnode
  · exact ⟨Binary.toRat_zero false, rfl, Binary.toRat_zero false⟩
  · rintro id parentId parent step hparent hchild hstep ⟨hcost, howed, -⟩
    obtain ⟨hmem, htouch, hregress, hestimate⟩ := ActionSet.mem_regressions_iff.1 hstep
    rw [← howed] at htouch hregress
    have hnext := owedBefore_of_regress? htouch hregress
    refine ⟨?_, hnext, ?_⟩
    · rw [hexact.running hparent hchild, (hstatic step.action hmem).cost_eq, hcost, planCost, add_comm]
    · rw [owedEstimate, htouch, if_pos rfl, hnext, ← hestimate]
      rfl

theorem planCost_nonneg {as : List Action} (h : ∀ a ∈ as, a.Static) : 0 ≤ planCost as := by
  induction as with
  | nil => exact le_refl 0
  | cons a rest ih =>
    exact add_nonneg (h a List.mem_cons_self).cost_nonneg (ih fun b hb => h b (List.mem_cons_of_mem a hb))

/-! ## Plans against rivals -/

namespace RegressivePlanner

theorem totalCost_nonneg {planner : RegressivePlanner} (hstatic : ∀ a ∈ actions.actions, a.Static)
    (hexact : (planner.search start goal actions).search.ExactSums) :
    ∀ node ∈ (planner.search start goal actions).search.arena.nodes, 0 ≤ node.totalCost.toRat := by
  intro node hmem
  obtain ⟨i, hi⟩ := Array.mem_iff_getElem?.1 hmem
  have hvalid := planner.valid_search start goal actions
  have hnode : (planner.search start goal actions).search.arena.get? ⟨i⟩ = some node := hi
  have hcost := (hvalid.cost_of_node hexact hstatic hnode).1
  have hpath := planCost_nonneg fun a ha => hstatic a ((hvalid.descends hnode).mem_actions a ha)
  have hestimate := hvalid.estimate_nonneg (ActionSet.lawful_problem hstatic) hnode
  rw [hexact.total hnode, hcost]
  exact add_nonneg hpath hestimate

/-- Without early exit and with static costs whose sums are exact, a rival that with the goal requires no
variable at two unequal defaults is cheaper than the plan at most by what the estimate overruns along it, by
what of the estimate is left at its beginning, and by the bucket loss for each of its actions and once more.
The bucket loss is at most a thousandth if all priorities are in the range of the buckets, and nothing if they
are whole thousandths as well. -/
theorem planCost_le_of_rival (start goal : State) (actions : ActionSet) (record : Bool)
    (hstatic : ∀ a ∈ actions.actions, a.Static)
    (hexact : (RegressivePlanner.search ⟨false, record⟩ start goal actions).search.ExactSums)
    (plan : List Action) (hplan : (RegressivePlanner.plan ⟨false, record⟩ start goal actions).plan = some plan) :
    (∀ rival : List Action, (∀ a ∈ rival, a ∈ actions.actions) → DefaultsAgree goal (.ofCatalog rival) →
      Achieves start goal rival →
      planCost plan + owedEstimate start goal plan ≤
        planCost rival + overrun start goal rival + owedEstimate start goal rival +
          (rival.length + 1) * (RegressivePlanner.search ⟨false, record⟩ start goal actions).search.bucketLoss) ∧
    ((∀ node ∈ (RegressivePlanner.search ⟨false, record⟩ start goal actions).search.arena.nodes,
        node.totalCost.toRat * 1000 < 2 ^ 63) →
      (RegressivePlanner.search ⟨false, record⟩ start goal actions).search.bucketLoss ≤ 1 / 1000) ∧
    ((∀ node ∈ (RegressivePlanner.search ⟨false, record⟩ start goal actions).search.arena.nodes,
        ∃ n : ℕ, n < 2 ^ 63 ∧ node.totalCost.toRat * 1000 = n) →
      (RegressivePlanner.search ⟨false, record⟩ start goal actions).search.bucketLoss = 0) := by
  have hnonneg := totalCost_nonneg hstatic hexact
  refine ⟨fun rival hmem hdefaults hachieves => ?_, Search.bucketLoss_le hnonneg, Search.bucketLoss_eq_zero⟩
  obtain ⟨id, node, hwinner, hnode, -, rfl⟩ := exists_node_of_plan hplan
  have hvalid := RegressivePlanner.valid_search ⟨false, record⟩ start goal actions
  have hbuckets := Search.buckets_bucketLoss hnonneg
  have hused : ∀ a ∈ rival, a ∈ (ActionSet.ofCatalog rival).actions := fun a ha =>
    ActionSet.mem_ofCatalog_iff.2 ⟨ha, actions.valid a (hmem a ha)⟩
  obtain ⟨price, hroute, hprice⟩ :=
    route_of_achieves hstatic hdefaults (hbuckets.loss_nonneg hvalid) hused hmem hachieves
  -- the start provides what is owed before the rival, so its route ends in a target
  have htotal := Search.totalCost_le_of_found (ActionSet.lawful_problem hstatic) hexact hbuckets
    (Search.found_of_winner? hwinner) hnode hroute (owedBefore_spec hdefaults hused hachieves).2
  obtain ⟨hcost, -, hestimate⟩ := hvalid.cost_of_node hexact hstatic hnode
  rw [hexact.total hnode, hcost, hestimate] at htotal
  linarith

end RegressivePlanner

/-! ## Plans that are not the cheapest -/

/-- Planning with the catalog's actions, whose costs are static, and without early exit returns a plan that
costs more than another sequence of these actions that achieves the goal as well. -/
def Overpays (start goal : State) (catalog rival : List Action) : Prop :=
  (∀ a ∈ catalog, a.Static ∧ a.valid = true) ∧ (∀ a ∈ rival, a ∈ catalog) ∧ Achieves start goal rival ∧
    ∃ plan ∈ (RegressivePlanner.planCatalog ⟨false, false⟩ start goal catalog).plan, planCost rival < planCost plan

namespace Workshop

def wanted : State := .ofPairs [("goal", .bool true)]

/-- An action that reaches what is wanted, from where `preconditions` hold. -/
def reach (name : String) (preconditions : List (String × Value)) (baseCost : Binary32) : Action :=
  { name, preconditions := .ofPairs preconditions, effects := wanted, baseCost }

/-- Three things to have ready. -/
def tools : List (String × Value) := [("plane", .bool true), ("saw", .bool true), ("vice", .bool true)]

/-- Gets all of them ready at once. -/
def prepare : Action := { name := "prepare", effects := .ofPairs tools, baseCost := 1 }

def bench : List Action := [reach "direct" [] (.ofInt 3), reach "finish" tools 1, prepare]

def benchRival : List Action := [prepare, reach "finish" tools 1]

/-- Three things not to have in the way. -/
def clear : List (String × Value) := [("dirt", .bool false), ("noise", .bool false), ("smoke", .bool false)]

/-- The same way twice, the dearer first. -/
def twoWays (dear cheap : Binary32) : List Action := [reach "dear" [] dear, reach "cheap" [] cheap]

theorem mem_bench_of_mem_benchRival : ∀ a ∈ benchRival, a ∈ bench := by
  intro a ha
  simp only [benchRival, bench, List.mem_cons, List.not_mem_nil, or_false] at ha ⊢
  rcases ha with rfl | rfl
  · exact .inr (.inr rfl)
  · exact .inr (.inl rfl)

/-- Getting the tools ready at once is cheap, but they are estimated one by one. What may be absent is
estimated as missing. A rival is dropped if it requires another default than the goal. Costs that share a
bucket are not told apart, neither small ones nor those beyond 64 bits. -/
theorem overpays :
    Overpays .empty wanted bench benchRival ∧
    Overpays .empty wanted [reach "direct" [] (.ofInt 2), reach "quiet" clear 1] [reach "quiet" clear 1] ∧
    Overpays .empty (wanted.set "count" (.bool false))
      [reach "direct" [] (.ofInt 2), reach "counted" [("count", .int 0)] 1] [reach "counted" [("count", .int 0)] 1] ∧
    Overpays .empty wanted (twoWays (1 / .ofInt 2048) (1 / .ofInt 4096)) [reach "cheap" [] (1 / .ofInt 4096)] ∧
    Overpays .empty wanted (twoWays (.ofInt (2 * 10 ^ 30)) (.ofInt (10 ^ 30)))
      [reach "cheap" [] (.ofInt (10 ^ 30))] := by
  have hmem : ∀ {x y : Action}, ∀ a ∈ [y], a ∈ [x, y] := fun a ha => List.mem_cons_of_mem _ ha
  refine ⟨⟨?_, mem_bench_of_mem_benchRival, ?_, ?_⟩, ⟨?_, hmem, ?_, ?_⟩, ⟨?_, hmem, ?_, ?_⟩, ⟨?_, hmem, ?_, ?_⟩,
    ⟨?_, hmem, ?_, ?_⟩⟩
  all_goals decide +kernel

/-- The plan found at the bench. -/
def benchPlan : List Action := ((RegressivePlanner.plan ⟨false, false⟩ .empty wanted (.ofCatalog bench)).plan).getD []

/-- At the bench the estimate overruns by two, and the plan costs one more than the rival. -/
theorem planCost_le_of_rival_bench :
    planCost benchPlan = 3 ∧ planCost benchRival = 2 ∧ overrun .empty wanted benchRival = 2 ∧
      planCost benchPlan + owedEstimate .empty wanted benchPlan ≤
        planCost benchRival + overrun .empty wanted benchRival + owedEstimate .empty wanted benchRival +
          (benchRival.length + 1) *
            (RegressivePlanner.search ⟨false, false⟩ .empty wanted (.ofCatalog bench)).search.bucketLoss :=
  ⟨by decide +kernel, by decide +kernel, by decide +kernel,
    (RegressivePlanner.planCost_le_of_rival .empty wanted (.ofCatalog bench) false (by decide +kernel)
      (by decide +kernel) benchPlan (PlanningResult.plan_eq_some_getD (by decide +kernel))).1 benchRival
      (fun a ha => ActionSet.mem_ofCatalog_iff.2 ⟨mem_bench_of_mem_benchRival a ha, by
        simp only [benchRival, List.mem_cons, List.not_mem_nil, or_false] at ha
        rcases ha with rfl | rfl <;> rfl⟩)
      (by decide +kernel) (by decide +kernel)⟩

end Workshop

end GoalRegression
