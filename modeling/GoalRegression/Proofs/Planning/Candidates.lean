/-
The plan among the other candidates. Without early exit the plan belongs to the node that is served first of all
nodes the start provides, by bucket and then by age (`plan_eq_path_of_least`). Priorities may fall along a path
or be no numbers: a candidate is never expanded, nor passed over as expanded before, so it waits until its turn.
-/
import GoalRegression.Proofs.Planning.Completeness
import GoalRegression.Proofs.Search.Turns

namespace GoalRegression

namespace RegressivePlanner

/-- Without early exit a plan is the path of a node whose state the start provides, and that node is ahead of all
others of the kind. Every other node has the state of a node that was expanded, or it still waits and comes after
the winner. -/
theorem plan_eq_path_of_least (record : Bool) (start goal : State) (actions : ActionSet) (plan : List Action)
    (h : (RegressivePlanner.plan ⟨false, record⟩ start goal actions).plan = some plan) :
    ∃ id winner, (search ⟨false, record⟩ start goal actions).ending.winner? = some id ∧
      (search ⟨false, record⟩ start goal actions).search.arena.get? id = some winner ∧
      start.isSuperstateOf winner.state = true ∧
      plan = (search ⟨false, record⟩ start goal actions).search.arena.pathActions id ∧
      (∀ other node, (search ⟨false, record⟩ start goal actions).search.arena.get? other = some node →
        start.isSuperstateOf node.state = true → other ≠ id →
        Ahead (bucket winner.totalCost, id) (bucket node.totalCost, other)) ∧
      ∀ other node, (search ⟨false, record⟩ start goal actions).search.arena.get? other = some node →
        other ≠ id →
        (∃ source expanded, (search ⟨false, record⟩ start goal actions).search.Expanded source ∧
          (search ⟨false, record⟩ start goal actions).search.arena.get? source = some expanded ∧
          (node.state == expanded.state) = true) ∨
        (bucket node.totalCost, other) ∈ (search ⟨false, record⟩ start goal actions).search.frontier.pending ∧
          Ahead (bucket winner.totalCost, id) (bucket node.totalCost, other) := by
  obtain ⟨id, hid, rfl⟩ := Option.map_eq_some_iff.1 h
  obtain ⟨winner, hwinner, htarget, hturn⟩ := Search.turn_of_found (Search.found_of_winner? hid)
  have hvalid := valid_search ⟨false, record⟩ start goal actions
  refine ⟨id, winner, hid, hwinner, htarget, rfl, ?_, ?_⟩
  · intro other node hother hmet hne
    rcases hturn other node hother hne with hvisited | ⟨-, hahead⟩
    · -- what the start provides is not expanded
      have hunvisited := hvalid.contains_eq_false_of_isTarget ActionSet.congruent_problem hmet
      exact absurd (hvisited.symm.trans hunvisited) (by decide)
    · exact hahead
  · intro other node hother hne
    exact (hturn other node hother hne).imp_left hvalid.exists_expanded_of_contains

end RegressivePlanner

/-! ## A river with three ways across -/

namespace River

def bank (side : String) : State := .ofPairs [("bank", .text side)]

def crossing (name : String) (cost : Binary32) : Action :=
  { name, preconditions := bank "left", effects := bank "right", baseCost := cost }

/-- There is no telling what swimming costs, and that is served before every cost. -/
def catalog : ActionSet :=
  .ofCatalog [crossing "bridge" (.ofInt 2), crossing "boat" 1,
    { crossing "swim" (.ofInt 3) with costRule := some fun _ => .nan }]

/-- The plan that the planner finds without early exit. -/
def plan : List Action := ((RegressivePlanner.plan ⟨false, false⟩ (bank "left") (bank "right") catalog).plan).getD []

theorem plan_eq : (RegressivePlanner.plan ⟨false, false⟩ (bank "left") (bank "right") catalog).plan = some plan :=
  PlanningResult.plan_eq_some_getD (by decide +kernel)

theorem plan_eq_path_of_least_river :
    plan.map (·.name) = ["swim"] ∧
      (RegressivePlanner.plan ⟨false, false⟩ (bank "left") (bank "right") catalog).plan = some plan ∧
      ∃ (id : NodeId) (winner : Node),
        (RegressivePlanner.search ⟨false, false⟩ (bank "left") (bank "right") catalog).ending.winner? = some id ∧
        plan = (RegressivePlanner.search ⟨false, false⟩ (bank "left") (bank "right") catalog).search.arena.pathActions
          id ∧
        ∀ other node,
          (RegressivePlanner.search ⟨false, false⟩ (bank "left") (bank "right") catalog).search.arena.get? other =
            some node → (bank "left").isSuperstateOf node.state = true → other ≠ id →
          Ahead (bucket winner.totalCost, id) (bucket node.totalCost, other) := by
  obtain ⟨id, winner, hid, -, -, hpath, hleast, -⟩ := RegressivePlanner.plan_eq_path_of_least false (bank "left")
    (bank "right") catalog plan plan_eq
  exact ⟨by decide +kernel, plan_eq, id, winner, hid, hpath, hleast⟩

end River

end GoalRegression
