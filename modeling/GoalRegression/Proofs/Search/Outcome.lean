/-
What a search from a root leaves behind, whatever the problem, the early exit and the number of rounds: the
outcome is valid (`valid_run`), a winner is a target (`isTarget_of_winner?`), an exhausted search has expanded
every state it made a node for (`closed_of_exhausted`), a search that uses up its rounds has made as many
nodes (`rounds_le_of_unfinished`), and there are no more nodes than the root and the children of the states
expanded (`size_run_le`).
-/
import GoalRegression.Proofs.Search.Valid

namespace GoalRegression.Search

variable {p : Problem} {root : State} {earlyExit : Bool} {s s' : Search}

/-! ## Counting -/

/-- A round that goes on takes one node out of the frontier, and lets every node that it makes wait. -/
theorem Round.count (h : Round p earlyExit s s' none) :
    s'.arena.size + s.frontier.pending.length = s.arena.size + s'.frontier.pending.length + 1 := by
  have hpopped : ∀ {id frontier}, s.frontier.pop? = some (id, frontier) →
      s.frontier.pending.length = frontier.pending.length + 1 := by
    intro id frontier hpop
    obtain ⟨⟨key, hpending⟩, -, -⟩ := PriorityQueue.pop?_eq_some hpop
    rw [hpending, List.length_cons]
  cases h with
  | @unknown id frontier hpop | @skipped id frontier node hpop =>
    have := hpopped hpop
    show s.arena.size + _ = s.arena.size + frontier.pending.length + 1
    omega
  | @expanded id frontier node hpop =>
    have := hpopped hpop
    rw [size_addSteps, length_pending_addSteps]
    show s.arena.size + _ + _ = s.arena.size + (frontier.pending.length + _) + 1
    omega

theorem Reaches.count {n : Nat} (h : Reaches p earlyExit s n s') :
    s'.arena.size + s.frontier.pending.length = s.arena.size + s'.frontier.pending.length + n := by
  induction h with
  | refl => rfl
  | next _ hround ih =>
    have := hround.count
    omega

/-- There are at most as many nodes as the root and the children of the states expanded. -/
def Fits (p : Problem) (s : Search) : Prop :=
  s.arena.size ≤ 1 + (s.visited.map fun state => (p.steps state).length).sum

theorem Round.fits {ending : Option Ending} (h : Round p earlyExit s s' ending) (hs : s.Fits p) : s'.Fits p := by
  unfold Fits at hs ⊢
  rcases h.effect with rfl | ⟨id, frontier, -, rfl | ⟨node, steps, -, -, -, hsteps, rfl⟩⟩
  · exact hs
  · exact hs
  · have hlength := hsteps.length_le
    rw [size_addSteps, visited_addSteps]
    show s.arena.size + _ ≤ 1 + ((node.state :: s.visited).map _).sum
    rw [List.map_cons, List.sum_cons]
    omega

/-! ## Runs from the root -/

theorem Reaches.valid_settled {record : Bool} {n : Nat} (h : Reaches p earlyExit (start root record) n s) :
    s.Valid p root ∧ s.Settled p := by
  refine h.invariant (I := fun s => s.Valid p root ∧ s.Settled p) ?_
    ⟨valid_start p root record, settled_start p root record⟩
  rintro s s' ⟨hvalid, hsettled⟩ hround
  exact ⟨hvalid.round hround, hsettled.round hvalid hround⟩

section Run

variable (p root earlyExit) (record : Bool) (rounds : Nat)

theorem valid_run : (run p earlyExit rounds (start root record)).search.Valid p root :=
  run_invariant (fun _ _ _ hs hround => hs.round hround) rounds (valid_start p root record)

theorem size_run_le : (run p earlyExit rounds (start root record)).search.Fits p :=
  run_invariant (fun _ _ _ hs hround => hround.fits hs) rounds (Nat.le_refl 1)

variable {p root earlyExit record rounds}

/-- A search ends with a winner only at a node that is a target. -/
theorem isTarget_of_winner? {id : NodeId}
    (h : (run p earlyExit rounds (start root record)).ending.winner? = some id) :
    ∃ node, (run p earlyExit rounds (start root record)).search.arena.get? id = some node ∧
      p.isTarget node.state = true := by
  rcases run_cases p earlyExit rounds (start root record) with
    ⟨s, hreach, heq⟩ | ⟨n, s, s', ending, -, hreach, hround, heq⟩
  · rw [heq] at h
    cases h
  · rw [heq] at h ⊢
    cases hround with
    | exhausted => cases h
    | found hpop hnode hvisited htarget =>
      cases h
      exact ⟨_, hnode, htarget⟩
    | @reached source _ node before step after hpop hnode hvisited htarget hsteps hexit hbefore hstep =>
      cases h
      refine ⟨.child source node step, ?_, hstep⟩
      rw [addSteps_append, addSteps_cons, addSteps_nil, get?_add, size_addSteps]
      exact if_pos rfl

/-- A search whose root is a target ends with it, early exit or not. -/
theorem run_start_of_isTarget (h : p.isTarget root = true) (record : Bool) (rounds : Nat) :
    ∃ frontier, ∀ earlyExit, run p earlyExit (rounds + 1) (start root record) =
      ⟨(start root record).withFrontier frontier, .found ⟨0⟩⟩ :=
  ⟨_, fun earlyExit => (Round.found rfl rfl rfl h : Round p earlyExit (start root record) _ _).run_eq rounds⟩

/-- Without early exit a winner has left the frontier. -/
theorem found_of_winner? {id : NodeId} (h : (run p false rounds (start root record)).ending.winner? = some id) :
    (run p false rounds (start root record)).ending = .found id := by
  rcases run_cases p false rounds (start root record) with
    ⟨s, -, heq⟩ | ⟨n, s, s', ending, -, -, hround, heq⟩
  · rw [heq] at h
    cases h
  · rw [heq] at h ⊢
    cases hround with
    | exhausted => cases h
    | found =>
      cases h
      rfl
    | reached _ _ _ _ _ hexit => cases hexit

/-- A target that was found left the frontier last, and its state was not expanded. -/
theorem exists_pop_of_found {id : NodeId} (h : (run p earlyExit rounds (start root record)).ending = .found id) :
    ∃ n s frontier node, Reaches p earlyExit (start root record) n s ∧ s.frontier.pop? = some (id, frontier) ∧
      s.arena.get? id = some node ∧ s.visited.contains node.state = false ∧ p.isTarget node.state = true ∧
      (run p earlyExit rounds (start root record)).search = s.withFrontier frontier := by
  rcases run_cases p earlyExit rounds (start root record) with
    ⟨s, -, heq⟩ | ⟨n, s, s', ending, -, hreach, hround, heq⟩
  · rw [heq] at h
    cases h
  · rw [heq] at h ⊢
    cases hround with
    | exhausted | reached => cases h
    | found hpop hnode hvisited htarget =>
      cases h
      exact ⟨n, s, _, _, hreach, hpop, hnode, hvisited, htarget, rfl⟩

/-- An exhausted search has expanded the state of every node. -/
theorem closed_of_exhausted (h : (run p earlyExit rounds (start root record)).ending = .exhausted) :
    (run p earlyExit rounds (start root record)).search.Settled p ∧
      ∀ id node, (run p earlyExit rounds (start root record)).search.arena.get? id = some node →
        (run p earlyExit rounds (start root record)).search.visited.contains node.state = true := by
  rcases run_cases p earlyExit rounds (start root record) with
    ⟨s, hreach, heq⟩ | ⟨n, s, s', ending, -, hreach, hround, heq⟩
  · rw [heq] at h
    cases h
  · rw [heq] at h ⊢
    cases hround with
    | exhausted hpop =>
      obtain ⟨hvalid, hsettled⟩ := hreach.valid_settled
      refine ⟨hsettled, fun id node hnode => ?_⟩
      rcases hsettled.served id node hnode with ⟨key, hmem⟩ | hvisited
      · rw [(PriorityQueue.pop?_eq_none_iff hvalid.queue).1 hpop] at hmem
        cases hmem
      · exact hvisited
    | _ => cases h

/-- A search that uses up its rounds has made at least as many nodes. -/
theorem rounds_le_of_unfinished (h : (run p earlyExit rounds (start root record)).ending = .unfinished) :
    rounds ≤ (run p earlyExit rounds (start root record)).search.arena.size := by
  rcases run_cases p earlyExit rounds (start root record) with
    ⟨s, hreach, heq⟩ | ⟨n, s, s', ending, -, hreach, hround, heq⟩
  · rw [heq]
    have hcount := hreach.count
    have hsize : (start root record).arena.size = 1 := rfl
    rw [pending_start, List.length_singleton, hsize] at hcount
    show rounds ≤ s.arena.size
    omega
  · rw [heq] at h
    exact absurd h hround.ending_ne_unfinished

end Run

end GoalRegression.Search
