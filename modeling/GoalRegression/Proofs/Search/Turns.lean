/-
The order of service. What waits is sorted by bucket, and within a bucket by the age of the node (`InTurn`),
whatever the priorities are: a node is put behind everything of its own bucket, and it is the youngest. So what
leaves the frontier is ahead of everything left in it. A node that is neither the winner nor of an expanded state
has not left the frontier, and comes after the winner (`turn_of_found`).
-/
import GoalRegression.Proofs.Search.Outcome

namespace GoalRegression

/-- The first of two entries is served before the second: its bucket is lower, or it is the same and its node is
the older one. -/
def Ahead (a b : Int × NodeId) : Prop := a.1 < b.1 ∨ a.1 = b.1 ∧ a.2.index < b.2.index

instance (a b : Int × NodeId) : Decidable (Ahead a b) := inferInstanceAs (Decidable (_ ∨ _ ∧ _))

/-- An item younger than all that wait takes its turn. -/
theorem PriorityQueue.pairwise_ahead_enqueue {q : PriorityQueue NodeId} (h : q.pending.Pairwise Ahead)
    (priority : Binary32) {id : NodeId} (hid : ∀ e ∈ q.pending, e.2.index < id.index) :
    (q.enqueue priority id).pending.Pairwise Ahead := by
  rw [pending_enqueue, List.pairwise_append, List.pairwise_cons]
  refine ⟨h.filter _, ⟨fun e he => ?_, h.filter _⟩, fun a ha b hb => ?_⟩
  · simp only [List.mem_filter, decide_eq_true_eq] at he
    exact .inl he.2
  · simp only [List.mem_filter, decide_eq_true_eq, List.mem_cons] at ha hb
    have hage := hid a ha.1
    unfold Ahead
    rcases hb with rfl | ⟨-, hb⟩
    · simp only
      omega
    · omega

namespace Search

variable {p : Problem} {root : State} {earlyExit : Bool} {s s' : Search}

/-- What waits is in the order of service, and was made before. -/
structure InTurn (s : Search) : Prop where
  sorted : s.frontier.pending.Pairwise Ahead
  made : ∀ e ∈ s.frontier.pending, e.2.index < s.arena.size

theorem inTurn_start (root : State) (record : Bool) : (start root record).InTurn where
  sorted := by
    rw [pending_start]
    exact List.pairwise_singleton ..
  made e he := by
    rw [pending_start, List.mem_singleton] at he
    subst he
    exact Nat.zero_lt_one

theorem InTurn.add (h : s.InTurn) (id : NodeId) (node : Node) (step : Step) : (s.add id node step).InTurn where
  sorted := PriorityQueue.pairwise_ahead_enqueue h.sorted _ h.made
  made e he := by
    have hsize : (s.add id node step).arena.size = s.arena.size + 1 := Arena.size_push ..
    rw [hsize]
    rcases mem_pending_add.1 he with rfl | he
    · exact Nat.lt_succ_self _
    · exact Nat.lt_succ_of_lt (h.made e he)

theorem InTurn.addSteps (h : s.InTurn) {id : NodeId} {node : Node} {steps : List Step} :
    (s.addSteps id node steps).InTurn :=
  addSteps_invariant (I := InTurn) (fun _ step ht => ht.add id node step) h

theorem InTurn.withFrontier (h : s.InTurn) {id : NodeId} {frontier : PriorityQueue NodeId}
    (hpop : s.frontier.pop? = some (id, frontier)) : (s.withFrontier frontier).InTurn := by
  obtain ⟨⟨key, hpending⟩, -, -⟩ := PriorityQueue.pop?_eq_some hpop
  obtain ⟨hsorted, hmade⟩ := h
  rw [hpending] at hsorted hmade
  exact ⟨hsorted.of_cons, fun e he => hmade e (List.mem_cons_of_mem _ he)⟩

theorem InTurn.visit (h : s.InTurn) (id : NodeId) (state : State) (children : Nat) :
    (s.visit id state children).InTurn := ⟨h.sorted, h.made⟩

theorem Round.inTurn {ending : Option Ending} (h : Round p earlyExit s s' ending) (hs : s.InTurn) : s'.InTurn := by
  rcases h.effect with rfl | ⟨id, frontier, hpop, rfl | ⟨node, steps, -, -, -, -, rfl⟩⟩
  · exact hs
  · exact hs.withFrontier hpop
  · exact ((hs.withFrontier hpop).visit _ _ _).addSteps

/-- A target that leaves the frontier is ahead of all other nodes, save those of a state that was expanded. -/
theorem turn_of_found {record : Bool} {rounds : Nat} {id : NodeId}
    (h : (run p earlyExit rounds (start root record)).ending = .found id) :
    ∃ winner, (run p earlyExit rounds (start root record)).search.arena.get? id = some winner ∧
      p.isTarget winner.state = true ∧
      ∀ other node, (run p earlyExit rounds (start root record)).search.arena.get? other = some node → other ≠ id →
        (run p earlyExit rounds (start root record)).search.visited.contains node.state = true ∨
        (bucket node.totalCost, other) ∈ (run p earlyExit rounds (start root record)).search.frontier.pending ∧
          Ahead (bucket winner.totalCost, id) (bucket node.totalCost, other) := by
  obtain ⟨n, s, frontier, winner, hreach, hpop, hnode, -, htarget, heq⟩ := exists_pop_of_found h
  obtain ⟨hvalid, hsettled⟩ := hreach.valid_settled
  have hturn : s.InTurn := hreach.invariant (fun _ _ hs hround => hround.inTurn hs) (inTurn_start root record)
  obtain ⟨⟨key, hpending⟩, -, -⟩ := PriorityQueue.pop?_eq_some hpop
  rw [heq]
  refine ⟨winner, hnode, htarget, fun other node hother hne => ?_⟩
  rcases hsettled.served other node hother with ⟨key', hmem⟩ | hvisited
  · obtain rfl := hvalid.key_eq hmem hother
    obtain rfl : key = bucket winner.totalCost := hvalid.key_eq (hpending ▸ List.mem_cons_self) hnode
    have hsorted := hturn.sorted
    rw [hpending] at hmem hsorted
    rcases List.mem_cons.1 hmem with heq | hmem
    · exact absurd (congrArg Prod.snd heq) hne
    · exact .inr ⟨hmem, List.rel_of_pairwise_cons hsorted hmem⟩
  · exact .inl hvisited

end Search

end GoalRegression
