/-
Whether there is a plan is a matter of the rules in the catalog only. Planning succeeds exactly if some owed
state that descends from the goal is provided by the start (`isSuccess_iff_descends`), and what descends from
the goal does not depend on how the search comes upon it. If every valid action of one catalog has its like in
another, then so has every descent, up to equality of what is owed (`Covers.descends`). So catalogs that have
the same preconditions and effects succeed alike, in any order, at any cost and with either kind of exit
(`isSuccess_eq_of_covers`).
-/
import GoalRegression.Proofs.Planning.Completeness

namespace GoalRegression

/-- Every valid action of the first catalog has one in the second that needs and sets the same. -/
def Covers (catalog catalog' : List Action) : Prop :=
  ∀ a ∈ catalog, a.valid = true → ∃ b ∈ catalog', b.valid = true ∧ a.Alike b

instance (catalog catalog' : List Action) : Decidable (Covers catalog catalog') :=
  inferInstanceAs (Decidable (∀ a ∈ catalog, _ → ∃ b ∈ catalog', _))

variable {start goal : State} {actions : ActionSet} {catalog catalog' : List Action}

/-! ## Descents in two catalogs -/

theorem Covers.exists_alike (h : Covers catalog catalog') {a : Action}
    (ha : a ∈ (ActionSet.ofCatalog catalog).actions) : ∃ b ∈ (ActionSet.ofCatalog catalog').actions, a.Alike b := by
  obtain ⟨hmem, hvalid⟩ := ActionSet.mem_ofCatalog_iff.1 ha
  obtain ⟨b, hb, hvalid', hab⟩ := h a hmem hvalid
  exact ⟨b, ActionSet.mem_ofCatalog_iff.2 ⟨hb, hvalid'⟩, hab⟩

/-- What descends from a goal with one catalog descends from it, up to equality, with one that covers it. -/
theorem Covers.descends (h : Covers catalog catalog') {owed : State} {path : List Action}
    (hdescends : ((ActionSet.ofCatalog catalog).problem start).Descends goal owed path) :
    ∃ owed' path', ((ActionSet.ofCatalog catalog').problem start).Descends goal owed' path' ∧
      (owed == owed') = true := by
  induction hdescends with
  | root => exact ⟨goal, [], .root, BEq.rfl⟩
  | @step owed path step _ hstep ih =>
    obtain ⟨owed', path', hdescends', heq⟩ := ih
    obtain ⟨hmem, htouch, hregress, -⟩ := ActionSet.mem_regressions_iff.1 hstep
    obtain ⟨b, hb, hab⟩ := h.exists_alike hmem
    obtain ⟨next', hnext', hbeq⟩ := State.regress?_of_alike hab heq hregress
    have hstep' : (⟨b, next', next'.distanceTo start true⟩ : Step) ∈
        (ActionSet.ofCatalog catalog').regressions start owed' :=
      ActionSet.mem_regressions_iff.2 ⟨hb, hab.touches_eq heq ▸ htouch, hnext', rfl⟩
    exact ⟨next', b :: path', .step hdescends' hstep', hbeq⟩

/-! ## Success -/

namespace RegressivePlanner

/-- Planning succeeds exactly if the start provides some owed state that descends from the goal. -/
theorem isSuccess_iff_descends (planner : RegressivePlanner) (start goal : State) (actions : ActionSet) :
    (planner.plan start goal actions).isSuccess = true ↔
      ∃ owed path, (actions.problem start).Descends goal owed path ∧ start.isSuperstateOf owed = true := by
  have hsuccess : (planner.plan start goal actions).isSuccess = true ↔
      ∃ id, (planner.search start goal actions).ending.winner? = some id := by
    rw [← Option.isSome_iff_exists]
    show Option.isSome (Option.map _ _) = true ↔ _
    rw [Option.isSome_map]
  rw [hsuccess]
  exact Search.exists_winner_iff ActionSet.congruent_problem (planner.ending_search_ne_unfinished start goal actions)

theorem isSuccess_of_covers (h : Covers catalog catalog') {planner planner' : RegressivePlanner}
    (hsuccess : (planner.planCatalog start goal catalog).isSuccess = true) :
    (planner'.planCatalog start goal catalog').isSuccess = true := by
  obtain ⟨owed, path, hdescends, hmet⟩ := (isSuccess_iff_descends ..).1 hsuccess
  obtain ⟨owed', path', hdescends', heq⟩ := h.descends hdescends
  rw [State.isSuperstateOf_congr BEq.rfl heq] at hmet
  exact (isSuccess_iff_descends ..).2 ⟨owed', path', hdescends', hmet⟩

/-- Two catalogs that have the same preconditions and effects succeed alike, whatever their order, repetitions,
names and costs are, and whatever the flags of the planners. -/
theorem isSuccess_eq_of_covers (planner planner' : RegressivePlanner) (start goal : State)
    (catalog catalog' : List Action) (h : Covers catalog catalog') (h' : Covers catalog' catalog) :
    (planner.planCatalog start goal catalog).isSuccess = (planner'.planCatalog start goal catalog').isSuccess := by
  rw [Bool.eq_iff_iff]
  constructor
  · exact isSuccess_of_covers h
  · exact isSuccess_of_covers h'

end RegressivePlanner

/-! ## The kitchen with another cook book -/

namespace Kitchen

/-- Cooking by another name and at a price, where the stove has to be at the positive zero. -/
def fry : Action where
  name := "fry"
  preconditions := .ofPairs [("stove", .float (.zero false))]
  effects := .ofPairs [("food", .int 1)]
  baseCost := .ofInt 3

/-- Begins with something that takes no part. -/
def cookBook : List Action := [{ fry with effects := wanted, valid := false }, fry, eat, fry]

/-- What can be had by frying can be had by cooking. -/
theorem isSuccess_eq_of_covers_kitchen :
    Covers [eat, cook] cookBook ∧ Covers cookBook [eat, cook] ∧
      (RegressivePlanner.planCatalog ⟨false, true⟩ world wanted [eat, cook]).isSuccess =
        (RegressivePlanner.planCatalog ⟨true, false⟩ world wanted cookBook).isSuccess ∧
      (RegressivePlanner.planCatalog ⟨true, false⟩ world wanted cookBook).isSuccess = true := by
  have hcovers : Covers [eat, cook] cookBook := by decide +kernel
  have hcovers' : Covers cookBook [eat, cook] := by decide +kernel
  exact ⟨hcovers, hcovers', RegressivePlanner.isSuccess_eq_of_covers ⟨false, true⟩ ⟨true, false⟩ world wanted _ _
    hcovers hcovers', by decide +kernel⟩

end Kitchen

end GoalRegression
