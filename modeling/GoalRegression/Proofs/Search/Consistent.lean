/-
Best-first search with a consistent estimate. A chain of expansions adds up what its steps cost
(`Problem.Chain`). If no step lets the estimate fall by more than it costs, and targets are estimated at
nothing, every chain is a route priced at its cost (`Problem.Chain.exists_route`). Then, as long as sums and
buckets are exact, the winner is the end of a chain that costs least among all that lead to a target
(`Search.runningCost_le_of_chain`): neither the states passed over as visited nor the order within a bucket
lose the cheapest one.
-/
import GoalRegression.Proofs.Search.Cheapest
import GoalRegression.Proofs.Search.Lineage

namespace GoalRegression

/-- No step lets the estimate fall by more than it costs, and a target is estimated at nothing. -/
structure Problem.Consistent (p : Problem) : Prop extends p.Lawful where
  fall_le : ∀ s, ∀ step ∈ p.steps s, ∀ next ∈ p.steps step.state,
    step.estimate.toRat ≤ (next.action.cost step.state).toRat + next.estimate.toRat
  target_estimate : ∀ s, ∀ step ∈ p.steps s, p.isTarget step.state = true → step.estimate.toRat = 0

/-- The state ends a chain of expansions from the root whose steps cost so much together. -/
inductive Problem.Chain (p : Problem) (root : State) : State → ℚ → Prop
  | root : p.Chain root root 0
  | step {state cost} {step : Step} (h : p.Chain root state cost) (hstep : step ∈ p.steps state) :
    p.Chain root step.state (cost + (step.action.cost state).toRat)

/-- A chain is a route whose price is what the chain costs. The estimate current at its end falls by no more
than any further step costs, and is nothing at a target. -/
theorem Problem.Chain.exists_route {p : Problem} {root state : State} {cost : ℚ} (hp : p.Consistent)
    (h : p.Chain root state cost) :
    ∃ estimate, p.Route root 0 state cost estimate ∧ (p.isTarget state = true → estimate = 0) ∧
      ∀ next ∈ p.steps state, estimate ≤ (next.action.cost state).toRat + next.estimate.toRat := by
  induction h with
  | root =>
    refine ⟨0, .root, fun _ => rfl, fun next hnext => ?_⟩
    exact add_nonneg (hp.cost_nonneg _ next hnext) (hp.estimate_nonneg _ next hnext)
  | @step state cost step _ hstep ih =>
    obtain ⟨estimate, hroute, -, hfall⟩ := ih
    refine ⟨step.estimate.toRat, ?_, hp.target_estimate state step hstep, hp.fall_le state step hstep⟩
    have hnext := hroute.step hstep
    -- the step costs at least what the estimate falls by, so it is the cost that is added
    have hprice : max ((step.action.cost state).toRat + 0) (estimate - step.estimate.toRat) =
        (step.action.cost state).toRat := by
      have := hfall step hstep
      rw [add_zero, max_eq_left (by linarith)]
    rwa [hprice] at hnext

namespace Search

/-- Every node waits under the exact thousandfold of its priority. -/
def ExactBuckets (s : Search) : Prop :=
  ∀ node ∈ s.arena.nodes, (bucket node.totalCost : ℚ) = node.totalCost.toRat * 1000

instance (s : Search) : Decidable s.ExactBuckets := inferInstanceAs (Decidable (∀ _ ∈ _, _))

variable {p : Problem} {root : State} {s : Search}

theorem ExactBuckets.buckets (h : s.ExactBuckets) : s.Buckets 0 := by
  intro id node id' node' hnode hnode' hle
  have hfirst := h node (Array.mem_of_getElem? hnode)
  have hsecond := h node' (Array.mem_of_getElem? hnode')
  have hcast : (bucket node.totalCost : ℚ) ≤ bucket node'.totalCost := by exact_mod_cast hle
  linarith

/-- A node ends a chain that costs what the node does. -/
theorem Valid.chain (h : s.Valid p root) (hexact : s.ExactSums) {id : NodeId} {node : Node}
    (hnode : s.arena.get? id = some node) : p.Chain root node.state node.runningCost.toRat := by
  refine h.path_induction (P := fun _ node _ => p.Chain root node.state node.runningCost.toRat) ?_ ?_ hnode
  · have hzero : (Node.root root).runningCost.toRat = 0 := Binary.toRat_zero false
    rw [hzero]
    exact .root
  · intro id parentId parent step hparent hchild hstep ih
    rw [hexact.running hparent hchild]
    exact ih.step hstep

/-- Without early exit and with a consistent estimate, the winner of a search whose sums and buckets are exact
ends a chain to a target, and no chain from the root to a target costs less. -/
theorem runningCost_le_of_chain (p : Problem) (hp : p.Consistent) (root : State) (record : Bool) (rounds : Nat)
    (hsums : (run p false rounds (start root record)).search.ExactSums)
    (hbuckets : (run p false rounds (start root record)).search.ExactBuckets) (id : NodeId)
    (hwinner : (run p false rounds (start root record)).ending.winner? = some id) :
    ∃ winner, (run p false rounds (start root record)).search.arena.get? id = some winner ∧
      p.isTarget winner.state = true ∧ p.Chain root winner.state winner.runningCost.toRat ∧
      ∀ state cost, p.Chain root state cost → p.isTarget state = true → winner.runningCost.toRat ≤ cost := by
  obtain ⟨winner, hnode, htarget⟩ := isTarget_of_winner? hwinner
  have hvalid := valid_run p root false record rounds
  refine ⟨winner, hnode, htarget, hvalid.chain hsums hnode, fun state cost hchain hstate => ?_⟩
  obtain ⟨estimate, hroute, hzero, -⟩ := hchain.exists_route hp
  have htotal := totalCost_le_of_found hp.toLawful hsums hbuckets.buckets (found_of_winner? hwinner) hnode
    hroute hstate
  have hsum := hsums.total hnode
  have hestimate := hvalid.estimate_nonneg hp.toLawful hnode
  have hend := hzero hstate
  linarith

end Search

/-! ## A house with a detour that is cheaper -/

namespace House

def room (name : String) : State := .ofPairs [("room", .text name)]

/-- How far it is at least from a room to the garden. -/
def estimate (s : State) : Binary32 := if s == room "hall" then .ofInt 2 else if s == room "garden" then 0 else 1

structure Door where
  source : State
  target : State
  cost : Binary32

def Door.step (d : Door) : Step := ⟨{ name := "walk", baseCost := d.cost }, d.target, estimate d.target⟩

/-- One can go straight to the garden, and round in a circle. From the stairs to the cellar is no distance. -/
def doors : List Door :=
  [⟨room "hall", room "garden", .ofInt 4⟩, ⟨room "hall", room "cellar", .ofInt 2⟩,
   ⟨room "hall", room "stairs", 1⟩, ⟨room "stairs", room "cellar", 0⟩,
   ⟨room "cellar", room "hall", 1⟩, ⟨room "cellar", room "garden", 1⟩]

def problem : Problem where
  isTarget s := s == room "garden"
  steps s := (doors.filter fun d => d.source == s).map Door.step

theorem mem_steps_iff {s : State} {step : Step} :
    step ∈ problem.steps s ↔ ∃ d ∈ doors, (d.source == s) = true ∧ d.step = step := by
  simp [problem, and_assoc]

theorem estimate_congr {s t : State} (h : (s == t) = true) : estimate s = estimate t := by
  unfold estimate
  rw [BEq.congr_left h, BEq.congr_left h]

theorem steps_congr {s t : State} (h : (s == t) = true) : problem.steps s = problem.steps t := by
  simp only [problem, BEq.congr_right h]

theorem consistent_problem : problem.Consistent where
  target s t h := BEq.congr_left h
  steps s t h step hstep := ⟨step, steps_congr h ▸ hstep, rfl, BEq.rfl, rfl⟩
  cost_congr s t h step hstep := by
    obtain ⟨d, -, -, rfl⟩ := mem_steps_iff.1 hstep
    rfl
  estimate_congr s t step hstep step' hstep' h := by
    obtain ⟨d, -, -, rfl⟩ := mem_steps_iff.1 hstep
    obtain ⟨d', -, -, rfl⟩ := mem_steps_iff.1 hstep'
    exact estimate_congr h
  cost_nonneg s step hstep := by
    obtain ⟨d, hd, -, rfl⟩ := mem_steps_iff.1 hstep
    have : ∀ d ∈ doors, 0 ≤ d.cost.toRat := by decide +kernel
    exact this d hd
  estimate_nonneg s step hstep := by
    obtain ⟨d, hd, -, rfl⟩ := mem_steps_iff.1 hstep
    have : ∀ d ∈ doors, 0 ≤ (estimate d.target).toRat := by decide +kernel
    exact this d hd
  fall_le s step hstep next hnext := by
    obtain ⟨d, hd, -, rfl⟩ := mem_steps_iff.1 hstep
    obtain ⟨d', hd', h, rfl⟩ := mem_steps_iff.1 hnext
    have : ∀ d ∈ doors, ∀ d' ∈ doors, (d'.source == d.target) = true →
        (estimate d.target).toRat ≤ d'.cost.toRat + (estimate d'.target).toRat := by decide +kernel
    exact this d hd d' hd' h
  target_estimate s step hstep htarget := by
    obtain ⟨d, hd, -, rfl⟩ := mem_steps_iff.1 hstep
    have : ∀ d ∈ doors, (d.target == room "garden") = true → (estimate d.target).toRat = 0 := by decide +kernel
    exact this d hd htarget

def outcome : Outcome := Search.run problem false 12 (Search.start (room "hall") false)

/-- The way by the stairs and the cellar costs two. No way to the garden costs less. -/
theorem runningCost_le_of_chain_house :
    problem.Consistent ∧ outcome.search.ExactSums ∧ outcome.search.ExactBuckets ∧
      outcome.ending.winner? = some ⟨6⟩ ∧ ∃ winner, outcome.search.arena.get? ⟨6⟩ = some winner ∧
        winner.runningCost.toRat = 2 ∧ problem.Chain (room "hall") winner.state 2 ∧
        ∀ state cost, problem.Chain (room "hall") state cost → problem.isTarget state = true → 2 ≤ cost := by
  have hsums : outcome.search.ExactSums := by decide +kernel
  have hbuckets : outcome.search.ExactBuckets := by decide +kernel
  have hwinner : outcome.ending.winner? = some ⟨6⟩ := by decide +kernel
  obtain ⟨winner, hnode, -, hchain, hleast⟩ := Search.runningCost_le_of_chain problem consistent_problem
    (room "hall") false 12 hsums hbuckets ⟨6⟩ hwinner
  rw [← outcome] at hnode
  have hcost : winner.runningCost.toRat = 2 := by
    have : (outcome.search.arena.get? ⟨6⟩).any fun node => node.runningCost.toRat == 2 := by decide +kernel
    rw [hnode] at this
    exact eq_of_beq this
  rw [hcost] at hchain hleast
  exact ⟨consistent_problem, hsums, hbuckets, hwinner, winner, hnode, hcost, hchain, hleast⟩

end House

end GoalRegression
