/-
What a search covers. A search that ends for lack of nodes has expanded, up to equality, every state that
descends from the root (`contains_of_descends`), and what it expanded are no targets. So a search that ends by
itself has a winner exactly if a target descends from the root (`exists_winner_iff`), in whatever order it
serves its nodes and whether it exits early or not.
-/
import GoalRegression.Proofs.Search.Lineage
import GoalRegression.Proofs.Search.Outcome

namespace GoalRegression.Search

variable {p : Problem} {root : State} {earlyExit record : Bool} {rounds : Nat}

/-- An exhausted search has expanded every state that descends from the root. -/
theorem contains_of_descends (hp : p.Congruent)
    (hexhausted : (run p earlyExit rounds (start root record)).ending = .exhausted) {state : State}
    {path : List Action} (h : p.Descends root state path) :
    (run p earlyExit rounds (start root record)).search.visited.contains state = true := by
  have hvalid := valid_run p root earlyExit record rounds
  obtain ⟨hsettled, hclosed⟩ := closed_of_exhausted hexhausted
  induction h with
  | root => exact hclosed ⟨0⟩ _ hvalid.root_node
  | step _ hstep ih =>
    obtain ⟨e, -, node, -, -, step', -, -, hbeq, -, new, hnew⟩ := hsettled.exists_child hvalid hp ih hstep
    -- the child is a node, so its state was expanded as well
    rw [← List.contains_congr hbeq]
    exact hclosed new _ hnew

/-- A search that ends by itself has a winner exactly if some target descends from the root. -/
theorem exists_winner_iff (hp : p.Congruent)
    (hfinished : (run p earlyExit rounds (start root record)).ending ≠ .unfinished) :
    (∃ id, (run p earlyExit rounds (start root record)).ending.winner? = some id) ↔
      ∃ state path, p.Descends root state path ∧ p.isTarget state = true := by
  have hvalid := valid_run p root earlyExit record rounds
  constructor
  · rintro ⟨id, hid⟩
    obtain ⟨node, hnode, htarget⟩ := isTarget_of_winner? hid
    exact ⟨node.state, _, hvalid.descends hnode, htarget⟩
  · rintro ⟨state, path, hdescends, htarget⟩
    cases hending : (run p earlyExit rounds (start root record)).ending with
    | found id => exact ⟨id, rfl⟩
    | reached id => exact ⟨id, rfl⟩
    | unfinished => exact absurd hending hfinished
    | exhausted =>
      -- the target was expanded, but no state expanded is a target
      have hunvisited := hvalid.contains_eq_false_of_isTarget hp htarget
      rw [contains_of_descends hp hending hdescends] at hunvisited
      cases hunvisited

end GoalRegression.Search
