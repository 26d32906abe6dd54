/-
A search depends on its problem only where it looks. If two problems agree on a set of states that the steps of the
first do not leave, then a search of such states goes through the same rounds with both (`Round.congr`), so the two
runs are one (`run_congr`).
-/
import GoalRegression.Proofs.Search.Rounds

namespace GoalRegression

/-- The problems have the same targets and steps among the states of a set, and the steps stay in the set. -/
structure Problem.AgreeOn (p p' : Problem) (P : State → Prop) : Prop where
  target : ∀ state, P state → p.isTarget state = p'.isTarget state
  steps : ∀ state, P state → p.steps state = p'.steps state
  closed : ∀ state, P state → ∀ step ∈ p.steps state, P step.state

namespace Search

variable {p p' : Problem} {P : State → Prop} {earlyExit : Bool} {s s' : Search}

/-- All nodes are of states in the set. -/
def Within (P : State → Prop) (s : Search) : Prop := ∀ id node, s.arena.get? id = some node → P node.state

theorem within_start {root : State} (hroot : P root) (record : Bool) : (start root record).Within P := by
  intro id node hnode
  obtain ⟨-, rfl⟩ := get?_start hnode
  exact hroot

theorem Within.round {ending : Option Ending} (h : s.Within P) (hp : p.AgreeOn p' P)
    (hround : Round p earlyExit s s' ending) : s'.Within P := by
  rcases hround.effect with rfl | ⟨id, frontier, -, rfl | ⟨node, steps, hnode, -, -, hbegin, rfl⟩⟩
  · exact h
  · exact h
  · intro new n hn
    rcases get?_addSteps hn with hn | ⟨-, step, hstep, rfl, -⟩
    · exact h new n hn
    · exact hp.closed _ (h id node hnode) step (hbegin.subset hstep)

/-- A round with one problem is a round with the other. -/
theorem Round.congr {ending : Option Ending} (hround : Round p earlyExit s s' ending) (hp : p.AgreeOn p' P)
    (hs : s.Within P) : Round p' earlyExit s s' ending := by
  -- the target test agrees on a node and on all its children
  have htargets : ∀ {id node}, s.arena.get? id = some node → ∀ {step}, step ∈ p.steps node.state →
      p.isTarget step.state = p'.isTarget step.state :=
    fun hnode _ hstep => hp.target _ (hp.closed _ (hs _ _ hnode) _ hstep)
  cases hround with
  | exhausted hpop => exact .exhausted hpop
  | unknown hpop hnode => exact .unknown hpop hnode
  | skipped hpop hnode hvisited => exact .skipped hpop hnode hvisited
  | found hpop hnode hvisited htarget =>
    rw [hp.target _ (hs _ _ hnode)] at htarget
    exact .found hpop hnode hvisited htarget
  | @expanded id frontier node hpop hnode hvisited htarget hnone =>
    rw [hp.target _ (hs _ _ hnode)] at htarget
    have hnone' : earlyExit = true → ∀ step ∈ p.steps node.state, p'.isTarget step.state = false := by
      intro hexit step hstep
      rw [← htargets hnode hstep]
      exact hnone hexit step hstep
    rw [hp.steps _ (hs _ _ hnode)] at hnone' ⊢
    exact .expanded hpop hnode hvisited htarget hnone'
  | @reached id frontier node before step after hpop hnode hvisited htarget hsteps hexit hbefore hstep =>
    rw [hp.target _ (hs _ _ hnode)] at htarget
    have hmem : ∀ t ∈ before ++ step :: after, t ∈ p.steps node.state := by
      rw [hsteps]
      exact fun _ h => h
    rw [htargets hnode (hmem step (by simp))] at hstep
    have hbefore' : ∀ t ∈ before, p'.isTarget t.state = false := by
      intro t ht
      rw [← htargets hnode (hmem t (by simp [ht]))]
      exact hbefore t ht
    rw [hp.steps _ (hs _ _ hnode)] at hsteps ⊢
    exact .reached hpop hnode hvisited htarget hsteps hexit hbefore' hstep

/-- Problems that agree wherever a search can get to are searched alike. -/
theorem run_congr (hp : p.AgreeOn p' P) (rounds : Nat) (hs : s.Within P) :
    run p earlyExit rounds s = run p' earlyExit rounds s := by
  induction rounds generalizing s with
  | zero => rfl
  | succ rounds ih =>
    obtain ⟨s', ending, hround⟩ := exists_round p earlyExit s
    rw [hround.run_eq, (hround.congr hp hs).run_eq]
    cases ending with
    | none => exact ih (hs.round hp hround)
    | some ending => rfl

/-- Runs on problems that agree end alike whatever their rounds are, if both end by themselves. -/
theorem run_eq_of_finished (hp : p.AgreeOn p' P) {rounds rounds' : Nat} (hs : s.Within P)
    (h : (run p earlyExit rounds s).ending ≠ .unfinished)
    (h' : (run p' earlyExit rounds' s).ending ≠ .unfinished) :
    run p earlyExit rounds s = run p' earlyExit rounds' s := by
  rw [← run_add_of_finished h rounds', ← run_add_of_finished h' rounds, Nat.add_comm rounds']
  exact run_congr hp _ hs

end Search

end GoalRegression
