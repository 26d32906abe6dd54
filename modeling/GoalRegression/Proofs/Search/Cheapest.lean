/-
What the winner of a best-first search costs against any other way to a target. A route from the root carries
a price that bounds what its end costs when it is expanded, and an allowance for the estimate that is current
there (`Route`). At any time the end of a route is expanded, or something waits for no more than price and
allowance (`visited_or_pending`): while nothing further on is expanded, that is what was next on the route.
Whatever leaves the frontier first is therefore no dearer, up to the width of a bucket, and so is the winner
(`totalCost_le_of_found`). A price only exceeds the cost of its steps where an estimate falls by more than the
step costs.
-/
import GoalRegression.Proofs.Search.Outcome
import Mathlib.Order.Lattice

namespace GoalRegression

/-- Equal states are alike in all that is searched, costs and estimates included, and nothing is negative. -/
structure Problem.Lawful (p : Problem) : Prop extends p.Congruent where
  cost_congr : ∀ s t, (s == t) = true → ∀ step ∈ p.steps s, step.action.cost s = step.action.cost t
  estimate_congr : ∀ s t, ∀ step ∈ p.steps s, ∀ step' ∈ p.steps t,
    (step.state == step'.state) = true → step.estimate = step'.estimate
  cost_nonneg : ∀ s, ∀ step ∈ p.steps s, 0 ≤ (step.action.cost s).toRat
  estimate_nonneg : ∀ s, ∀ step ∈ p.steps s, 0 ≤ step.estimate.toRat

/-- The state ends a route from the root, with a price and the estimate that is current there. -/
inductive Problem.Route (p : Problem) (root : State) (loss : ℚ) : State → ℚ → ℚ → Prop
  | root : p.Route root loss root 0 0
  | step {state price estimate} {step : Step} (h : p.Route root loss state price estimate)
    (hstep : step ∈ p.steps state) :
    p.Route root loss step.state
      (price + max ((step.action.cost state).toRat + loss) (estimate - step.estimate.toRat)) step.estimate.toRat

theorem Problem.Route.price_nonneg {p : Problem} {root state : State} {loss price estimate : ℚ} (hp : p.Lawful)
    (hloss : 0 ≤ loss) (h : p.Route root loss state price estimate) : 0 ≤ price := by
  induction h with
  | root => exact le_refl 0
  | @step state price estimate step h hstep ih =>
    have hcost := hp.cost_nonneg state step hstep
    have hmax := le_max_left ((step.action.cost state).toRat + loss) (estimate - step.estimate.toRat)
    linarith

namespace Search

/-! ## Prices and sums -/

/-- The additions that a search makes are exact: the priority of a node is its cost and its estimate, and its
cost is that of its parent and of the action. -/
def ExactSums (s : Search) : Prop :=
  (∀ node ∈ s.arena.nodes, node.totalCost.toRat = node.runningCost.toRat + node.estimate.toRat) ∧
  ∀ node ∈ s.arena.nodes, ∀ parentId ∈ node.parent, ∀ parent ∈ s.arena.get? parentId, ∀ a ∈ node.action,
    node.runningCost.toRat = parent.runningCost.toRat + (a.cost parent.state).toRat

instance (s : Search) : Decidable s.ExactSums := inferInstanceAs (Decidable (_ ∧ _))

theorem ExactSums.total {s : Search} (h : s.ExactSums) {id : NodeId} {node : Node}
    (hnode : s.arena.get? id = some node) :
    node.totalCost.toRat = node.runningCost.toRat + node.estimate.toRat :=
  h.1 node (Array.mem_of_getElem? hnode)

theorem ExactSums.running {s : Search} (h : s.ExactSums) {id parentId : NodeId} {parent : Node} {step : Step}
    (hparent : s.arena.get? parentId = some parent) (hnode : s.arena.get? id = some (.child parentId parent step)) :
    (Node.child parentId parent step).runningCost.toRat =
      parent.runningCost.toRat + (step.action.cost parent.state).toRat :=
  h.2 _ (Array.mem_of_getElem? hnode) parentId rfl parent hparent step.action rfl

/-- Of two nodes, one in no higher bucket has a priority at most `loss` above the other. -/
def Buckets (s : Search) (loss : ℚ) : Prop :=
  ∀ id node id' node', s.arena.get? id = some node → s.arena.get? id' = some node' →
    bucket node.totalCost ≤ bucket node'.totalCost → node.totalCost.toRat ≤ node'.totalCost.toRat + loss

variable {p : Problem} {root : State} {earlyExit : Bool} {s s' : Search} {loss : ℚ}

theorem Buckets.loss_nonneg (h : s.Buckets loss) (hvalid : s.Valid p root) : 0 ≤ loss := by
  have := h _ _ _ _ hvalid.root_node hvalid.root_node (Int.le_refl _)
  linarith

theorem ExactSums.of_extends (h : s'.ExactSums) (hs : s.Extends s') : s.ExactSums := by
  constructor
  · intro node hnode
    obtain ⟨i, hi⟩ := Array.mem_iff_getElem?.1 hnode
    exact h.total (hs ⟨i⟩ node hi)
  · intro node hnode parentId hparentId parent hparent a ha
    obtain ⟨i, hi⟩ := Array.mem_iff_getElem?.1 hnode
    exact h.2 node (Array.mem_of_getElem? (hs ⟨i⟩ node hi)) parentId hparentId parent (hs _ _ hparent) a ha

theorem Buckets.of_extends (h : s'.Buckets loss) (hs : s.Extends s') : s.Buckets loss :=
  fun id node id' node' hnode hnode' => h id node id' node' (hs _ _ hnode) (hs _ _ hnode')

theorem Valid.estimate_nonneg (h : s.Valid p root) (hp : p.Lawful) {id : NodeId} {node : Node}
    (hnode : s.arena.get? id = some node) : 0 ≤ node.estimate.toRat := by
  rcases Nat.eq_zero_or_pos id.index with hzero | hpos
  · obtain rfl : id = ⟨0⟩ := congrArg NodeId.mk hzero
    rw [h.root_node] at hnode
    cases hnode
    exact le_of_eq (Binary.toRat_zero false).symm
  · obtain ⟨parentId, parent, step, -, -, hstep, rfl⟩ := h.child id node hnode hpos
    exact hp.estimate_nonneg parent.state step hstep

/-! ## Routes and the frontier -/

/-- Whatever is expanded at the end of a route costs at most the price, up to the loss. -/
def Thrifty (p : Problem) (root : State) (loss : ℚ) (s : Search) : Prop :=
  ∀ state price estimate, p.Route root loss state price estimate → ∀ e ∈ s.expansions.toList, ∀ node,
    s.arena.get? e.1 = some node → (node.state == state) = true → node.runningCost.toRat ≤ price + loss

/-- The end of a route has been expanded, or something waits that costs no more than the price and the
estimate there. -/
theorem visited_or_pending (hp : p.Lawful) (hvalid : s.Valid p root) (hsettled : s.Settled p)
    (hexact : s.ExactSums) (hthrifty : s.Thrifty p root loss) {state : State} {price estimate : ℚ}
    (hroute : p.Route root loss state price estimate) :
    s.visited.contains state = true ∨ ∃ e ∈ s.frontier.pending, ∃ node, s.arena.get? e.2 = some node ∧
      node.totalCost.toRat ≤ price + estimate := by
  induction hroute with
  | root =>
    rcases hsettled.served ⟨0⟩ _ hvalid.root_node with ⟨key, hmem⟩ | hvisited
    · refine .inr ⟨_, hmem, _, hvalid.root_node, ?_⟩
      rw [Node.totalCost_root, add_zero]
      exact le_of_eq (Binary.toRat_zero false)
    · exact .inl hvisited
  | @step state price estimate step hroute hstep ih =>
    rcases ih with hvisited | ⟨e, hmem, node, hnode, hle⟩
    · -- the route goes on through a child of the node expanded
      obtain ⟨e, he, node, hnode, hstate, step', hstep', haction, hbeq, hestimate, new, hnew⟩ :=
        hsettled.exists_child hvalid hp.toCongruent hvisited hstep
      have hprice := hthrifty state price estimate hroute e he node hnode hstate
      have hcost : step'.action.cost node.state = step.action.cost state := by
        rw [haction, hp.cost_congr state node.state (BEq.symm hstate) step hstep]
      have htotal := hexact.total hnew
      have hrunning := hexact.running hnode hnew
      have hmax := le_max_left ((step.action.cost state).toRat + loss) (estimate - step.estimate.toRat)
      have hchild : (Node.child e.1 node step').estimate = step.estimate := hestimate
      rw [hcost] at hrunning
      rw [hchild] at htotal
      rcases hsettled.served new _ hnew with ⟨key, hpending⟩ | hvisited
      · exact .inr ⟨_, hpending, _, hnew, by linarith⟩
      · have hchildState : s.visited.contains step'.state = true := hvisited
        rw [List.contains_congr hbeq] at hchildState
        exact .inl hchildState
    · -- what waited before the step still does, and the price has grown by what the estimate fell
      have hmax := le_max_right ((step.action.cost state).toRat + loss) (estimate - step.estimate.toRat)
      exact .inr ⟨e, hmem, node, hnode, by linarith⟩

/-- What leaves the frontier is in no higher bucket than anything that waits. -/
theorem Valid.bucket_le_of_pop (h : s.Valid p root) {id : NodeId} {frontier : PriorityQueue NodeId} {node : Node}
    (hpop : s.frontier.pop? = some (id, frontier)) (hnode : s.arena.get? id = some node)
    {e : Int × NodeId} (he : e ∈ s.frontier.pending) {other : Node} (hother : s.arena.get? e.2 = some other) :
    bucket node.totalCost ≤ bucket other.totalCost := by
  obtain ⟨⟨key, hpending⟩, -, -⟩ := PriorityQueue.pop?_eq_some hpop
  have hkey := h.key_eq (hpending ▸ List.mem_cons_self) hnode
  have hkey' := h.key_eq he hother
  have hsorted := s.frontier.pending_sorted
  rw [hpending] at hsorted he
  rcases List.mem_cons.1 he with rfl | he
  · exact Int.le_of_eq (hkey.symm.trans hkey')
  · have := (List.pairwise_cons.1 hsorted).1 e he
    rwa [← hkey, ← hkey']

/-- What leaves the frontier while the end of a route is not expanded costs no more than price and estimate
there, up to the loss. -/
theorem totalCost_le_of_pop (hp : p.Lawful) (hvalid : s.Valid p root) (hsettled : s.Settled p)
    (hexact : s.ExactSums) (hbuckets : s.Buckets loss) (hthrifty : s.Thrifty p root loss) {state : State}
    {price estimate : ℚ} (hroute : p.Route root loss state price estimate)
    (hstate : s.visited.contains state = false) {id : NodeId} {frontier : PriorityQueue NodeId} {node : Node}
    (hpop : s.frontier.pop? = some (id, frontier)) (hnode : s.arena.get? id = some node) :
    node.totalCost.toRat ≤ price + estimate + loss := by
  rcases visited_or_pending hp hvalid hsettled hexact hthrifty hroute with hvisited | ⟨e, he, other, hother, hle⟩
  · rw [hstate] at hvisited
    cases hvisited
  · have := hbuckets _ _ _ _ hnode hother (hvalid.bucket_le_of_pop hpop hnode he hother)
    linarith

theorem thrifty_start (record : Bool) : (start root record).Thrifty p root loss :=
  fun _ _ _ _ _ he => absurd he List.not_mem_nil

/-- The estimate current at the end of a route is at most that of a node in its state, unless that is the
root. -/
theorem Valid.estimate_le_of_route (hvalid : s.Valid p root) (hp : p.Lawful) {state : State}
    {price estimate : ℚ} (hroute : p.Route root loss state price estimate) {id : NodeId} {node : Node}
    (hnode : s.arena.get? id = some node) (hid : 0 < id.index) (hstate : (node.state == state) = true) :
    estimate ≤ node.estimate.toRat := by
  cases hroute with
  | root => exact hvalid.estimate_nonneg hp hnode
  | @step state' price' estimate' step _ hstep =>
    obtain ⟨parentId, parent, step', -, -, hstep', rfl⟩ := hvalid.child id node hnode hid
    have : step'.estimate = step.estimate := hp.estimate_congr _ _ step' hstep' step hstep hstate
    exact le_of_eq (congrArg Binary.toRat this.symm)

theorem Thrifty.round (h : s.Thrifty p root loss) (hp : p.Lawful) (hvalid : s.Valid p root)
    (hsettled : s.Settled p) (hexact : s.ExactSums) (hbuckets : s.Buckets loss)
    (hround : Round p earlyExit s s' none) : s'.Thrifty p root loss := by
  have hkeep := hround.extends
  cases hround with
  | unknown | skipped => exact h
  | @expanded id frontier node hpop hnode hvisited =>
    intro state price estimate hroute e he n hn hstate
    rw [expansions_addSteps] at he
    rcases mem_expansions_visit.1 he with he | rfl
    · obtain ⟨old, hold, -⟩ := hvalid.exists_of_mem_expansions he
      obtain rfl := Option.some.inj ((hkeep _ _ hold).symm.trans hn)
      exact h state price estimate hroute e he old hold hstate
    · obtain rfl := Option.some.inj ((hkeep _ _ hnode).symm.trans hn)
      -- the node just expanded left the frontier while the end of the route was not expanded
      have hunvisited : s.visited.contains state = false := by
        rw [← List.contains_congr hstate]
        exact hvisited
      have htotal := totalCost_le_of_pop hp hvalid hsettled hexact hbuckets h hroute hunvisited hpop hnode
      have hprice := hroute.price_nonneg hp (hbuckets.loss_nonneg hvalid)
      have hloss := hbuckets.loss_nonneg hvalid
      rcases Nat.eq_zero_or_pos id.index with hzero | hpos
      · obtain rfl : id = ⟨0⟩ := congrArg NodeId.mk hzero
        obtain rfl := Option.some.inj (hvalid.root_node.symm.trans hnode)
        have hroot : (Node.root root).runningCost.toRat = 0 := Binary.toRat_zero false
        linarith
      · have hestimate := hvalid.estimate_le_of_route hp hroute hnode hpos hstate
        have hsum := hexact.total hnode
        linarith

/-! ## The winner -/

theorem Reaches.thrifty (hp : p.Lawful) {record : Bool} {n : Nat} (h : Reaches p earlyExit (start root record) n s)
    (hexact : s.ExactSums) (hbuckets : s.Buckets loss) : s.Thrifty p root loss := by
  induction h with
  | refl => exact thrifty_start record
  | next hreach hround ih =>
    obtain ⟨hvalid, hsettled⟩ := hreach.valid_settled
    have hexact := hexact.of_extends hround.extends
    have hbuckets := hbuckets.of_extends hround.extends
    exact (ih hexact hbuckets).round hp hvalid hsettled hexact hbuckets hround

/-- A target that leaves the frontier costs no more than any route to a target, up to the loss. -/
theorem totalCost_le_of_found (hp : p.Lawful) {record : Bool} {rounds : Nat} {id : NodeId}
    (hexact : (run p earlyExit rounds (start root record)).search.ExactSums)
    (hbuckets : (run p earlyExit rounds (start root record)).search.Buckets loss)
    (hending : (run p earlyExit rounds (start root record)).ending = .found id) {node : Node}
    (hnode : (run p earlyExit rounds (start root record)).search.arena.get? id = some node) {state : State}
    {price estimate : ℚ} (hroute : p.Route root loss state price estimate) (htarget : p.isTarget state = true) :
    node.totalCost.toRat ≤ price + estimate + loss := by
  obtain ⟨n, s, frontier, winner, hreach, hpop, hwinner, -, -, heq⟩ := exists_pop_of_found hending
  rw [heq] at hexact hbuckets hnode
  have hexact' : s.ExactSums := hexact
  have hbuckets' : s.Buckets loss := hbuckets
  obtain rfl : winner = node := Option.some.inj (hwinner.symm.trans hnode)
  obtain ⟨hvalid, hsettled⟩ := hreach.valid_settled
  have hthrifty := hreach.thrifty hp hexact' hbuckets'
  have hunvisited := hvalid.contains_eq_false_of_isTarget hp.toCongruent htarget
  exact totalCost_le_of_pop hp hvalid hsettled hexact' hbuckets' hthrifty hroute hunvisited hpop hwinner

end Search

end GoalRegression
