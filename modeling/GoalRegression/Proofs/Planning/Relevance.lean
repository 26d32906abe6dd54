/-
Planning depends on what is mentioned only, by the goal or a precondition. An owed state binds nothing else
(`Owable.mem_mentioned`), so the start is not asked about another variable, and an action that sets only others is
never a way back. Two starts that agree on what is mentioned therefore make one search problem of a catalog, and
so do two catalogs of which one has more actions of that sort: neither the plan nor the record tells them apart
(`plan_depends_on_mentioned`).
-/
import GoalRegression.Action.CostRule
import GoalRegression.Proofs.Planning.Soundness
import GoalRegression.Proofs.Planning.Termination
import GoalRegression.Proofs.Regression.Order
import GoalRegression.Proofs.Search.Agreement

namespace GoalRegression

/-- The variables of the goal and of the preconditions, as often as they occur. -/
def mentioned (goal : State) (actions : ActionSet) : List String := (Requirements.pairs goal actions).map (·.1)

/-- Under each of the names the states hold equal values, or both none. -/
def State.AgreesOn (keys : List String) (s t : State) : Prop := ∀ key ∈ keys, (s.value? key == t.value? key) = true

instance (keys : List String) (s t : State) : Decidable (s.AgreesOn keys t) :=
  inferInstanceAs (Decidable (∀ key ∈ keys, _))

/-- The action sets none of the variables. -/
def Action.Spares (keys : List String) (a : Action) : Prop := ∀ key ∈ keys, a.effects.contains key = false

instance (keys : List String) (a : Action) : Decidable (a.Spares keys) :=
  inferInstanceAs (Decidable (∀ key ∈ keys, _))

/-- The second list is the first one with some elements of a kind inserted, at any places. -/
inductive Inserts {α : Type u} (extra : α → Prop) : List α → List α → Prop
  | nil : Inserts extra [] []
  | keep {xs ys} (a : α) (h : Inserts extra xs ys) : Inserts extra (a :: xs) (a :: ys)
  | insert {xs ys} (a : α) (ha : extra a) (h : Inserts extra xs ys) : Inserts extra xs (a :: ys)

/-! ## Insertions -/

namespace Inserts

variable {α : Type u} {ε : Type v} {extra : α → Prop} {xs ys : List α}

theorem filter (h : Inserts extra xs ys) (p : α → Bool) : Inserts extra (xs.filter p) (ys.filter p) := by
  induction h with
  | nil => exact .nil
  | keep a _ ih =>
    by_cases hp : p a = true
    · rw [List.filter_cons_of_pos hp, List.filter_cons_of_pos hp]
      exact .keep a ih
    · rw [List.filter_cons_of_neg hp, List.filter_cons_of_neg hp]
      exact ih
  | insert a ha _ ih =>
    by_cases hp : p a = true
    · rw [List.filter_cons_of_pos hp]
      exact .insert a ha ih
    · rw [List.filter_cons_of_neg hp]
      exact ih

theorem filter_eq (h : Inserts extra xs ys) {p : α → Bool} (hextra : ∀ a, extra a → p a = false) :
    xs.filter p = ys.filter p := by
  induction h with
  | nil => rfl
  | keep a _ ih => rw [List.filter_cons, List.filter_cons, ih]
  | insert a ha _ ih => rw [List.filter_cons_of_neg (by simp [hextra a ha]), ih]

/-- What matches no key does not show. -/
theorem byFirstMatch_eq (h : Inserts extra xs ys) {isMatch : ε → α → Bool} {keys : List ε}
    (hextra : ∀ a, extra a → ∀ e ∈ keys, isMatch e a = false) :
    byFirstMatch isMatch keys xs = byFirstMatch isMatch keys ys := by
  induction keys generalizing xs ys with
  | nil => rfl
  | cons e rest ih =>
    have hhead : ∀ a, extra a → isMatch e a = false := fun a ha => hextra a ha e List.mem_cons_self
    have htail : ∀ a, extra a → ∀ e' ∈ rest, isMatch e' a = false :=
      fun a ha e' he' => hextra a ha e' (List.mem_cons_of_mem _ he')
    unfold byFirstMatch
    rw [h.filter_eq hhead, ih (h.filter _) htail]

end Inserts

section

/-! ## What is mentioned -/

variable {start start' goal : State} {actions : ActionSet} {catalog catalog' : List Action}

theorem mem_mentioned_iff {key : String} : key ∈ mentioned goal actions ↔ ∃ v, Required goal actions key v := by
  unfold mentioned
  rw [List.mem_map]
  constructor
  · rintro ⟨⟨_, v⟩, hmem, rfl⟩
    exact ⟨v, Requirements.mem_pairs_iff.1 hmem⟩
  · rintro ⟨v, hv⟩
    exact ⟨(key, v), Requirements.mem_pairs_iff.2 hv, rfl⟩

/-- An owed state binds only variables that are mentioned. -/
theorem Owable.mem_mentioned {owed : State} (h : Owable goal actions owed) {e : String × Value}
    (he : e ∈ owed.toList) : e.1 ∈ mentioned goal actions := by
  obtain ⟨w, hw, -⟩ := h e.1 e.2 (State.mem_toList_iff.1 he)
  exact mem_mentioned_iff.2 ⟨w, hw⟩

theorem Action.Spares.gives_eq_false {keys : List String} {a : Action} (h : a.Spares keys) {e : String × Value}
    (he : e.1 ∈ keys) : a.gives e = false := by
  have hnone := h e.1 he
  rw [State.contains_eq_isSome_content, Option.isSome_eq_false_iff, Option.isNone_iff_eq_none,
    State.content_eq_none_iff] at hnone
  unfold Action.gives
  rw [hnone]
  rfl

/-! ## Two starts -/

namespace State

variable {s : State}

/-- Whether a state is provided is a matter of what is held under its names. -/
theorem isSuperstateOf_eq_of_agreesOn (h : start.AgreesOn (s.toList.map (·.1)) start') :
    start.isSuperstateOf s = start'.isSuperstateOf s := by
  have hcontent : ∀ key v, s.content key = some v → start.content key = start'.content key := by
    intro key v hv
    obtain ⟨w, hw, -⟩ := content_eq_some_iff.1 hv
    exact value?_beq_iff_content.1 (h key (List.mem_map.2 ⟨(key, w), mem_toList_iff.2 hw, rfl⟩))
  rw [Bool.eq_iff_iff, isSuperstateOf_iff, isSuperstateOf_iff]
  exact forall₃_congr fun key v hv => by rw [hcontent key v hv]

/-- So is how far a state is, one way. -/
theorem distanceTo_eq_of_agreesOn (h : start.AgreesOn (s.toList.map (·.1)) start') :
    s.distanceTo start true = s.distanceTo start' true := by
  unfold distanceTo
  rw [if_pos rfl, if_pos rfl]
  exact gapTo_congr_right s fun e he => h e.1 (List.mem_map_of_mem he)

end State

theorem Owable.agreesOn {owed : State} (howed : Owable goal actions owed)
    (h : start.AgreesOn (mentioned goal actions) start') : start.AgreesOn (owed.toList.map (·.1)) start' := by
  intro key hkey
  obtain ⟨e, he, rfl⟩ := List.mem_map.1 hkey
  exact h e.1 (howed.mem_mentioned he)

/-- Starts that agree on what is mentioned make one problem of the states that can be owed. -/
theorem ActionSet.problem_agreeOn (h : start.AgreesOn (mentioned goal actions) start') :
    (actions.problem start).AgreeOn (actions.problem start') (Owable goal actions) where
  target _ howed := State.isSuperstateOf_eq_of_agreesOn (howed.agreesOn h)
  closed _ howed _ hstep := howed.step hstep
  steps owed howed := by
    show actions.regressions start owed = actions.regressions start' owed
    rw [regressions_eq, regressions_eq]
    refine List.filterMap_congr fun a ha => ?_
    unfold Action.step?
    cases hnext : owed.regress? a with
    | none =>
      -- not by `rfl`, which would compare the two distances
      rw [Option.map_none, Option.map_none]
    | some next =>
      have hmem : a ∈ actions.actions := Array.mem_toList_iff.1 (mem_of_mem_byFirstMatch ha)
      rw [Option.map_some, Option.map_some,
        State.distanceTo_eq_of_agreesOn ((howed.regress? hmem hnext).agreesOn h)]

/-! ## Two catalogs -/

/-- Actions that set nothing mentioned leave the problem of the states that can be owed as it is. -/
theorem ActionSet.problem_agreeOn_of_inserts
    (h : Inserts (Action.Spares (mentioned goal (.ofCatalog catalog))) catalog catalog') (start : State) :
    ((ActionSet.ofCatalog catalog).problem start).AgreeOn ((ActionSet.ofCatalog catalog').problem start)
      (Owable goal (.ofCatalog catalog)) where
  target _ _ := rfl
  closed _ howed _ hstep := howed.step hstep
  steps owed howed := by
    show (ActionSet.ofCatalog catalog).regressions start owed = (ActionSet.ofCatalog catalog').regressions start owed
    have hgives : ∀ a : Action, a.Spares (mentioned goal (.ofCatalog catalog)) → ∀ e ∈ owed.toList, a.gives e = false :=
      fun a ha e he => ha.gives_eq_false (howed.mem_mentioned he)
    rw [regressions_eq, regressions_eq]
    exact congrArg (List.filterMap _) ((h.filter (·.valid)).byFirstMatch_eq hgives)

/-! ## One search -/

namespace RegressivePlanner

theorem search_eq_of_agreeOn (planner : RegressivePlanner) {actions' : ActionSet}
    (h : (actions.problem start).AgreeOn (actions'.problem start') (Owable goal actions)) :
    planner.search start goal actions = planner.search start' goal actions' :=
  Search.run_eq_of_finished h (Search.within_start (owable_goal goal actions) _)
    (planner.ending_search_ne_unfinished start goal actions) (planner.ending_search_ne_unfinished start' goal actions')

/-- Planning depends on what is mentioned only: the plan and the record are the same from two starts that agree on
it, and they stay the same if actions that set nothing mentioned are inserted into the catalog. -/
theorem plan_depends_on_mentioned (planner : RegressivePlanner) (goal : State) :
    (∀ (actions : ActionSet) (start start' : State), start.AgreesOn (mentioned goal actions) start' →
      planner.plan start goal actions = planner.plan start' goal actions) ∧
    ∀ (start : State) (catalog catalog' : List Action),
      Inserts (Action.Spares (mentioned goal (.ofCatalog catalog))) catalog catalog' →
      planner.planCatalog start goal catalog = planner.planCatalog start goal catalog' := by
  constructor
  · intro actions start start' h
    exact congrArg Outcome.result (planner.search_eq_of_agreeOn (ActionSet.problem_agreeOn h))
  · intro start catalog catalog' h
    exact congrArg Outcome.result (planner.search_eq_of_agreeOn (ActionSet.problem_agreeOn_of_inserts h start))

end RegressivePlanner

end

/-! ## The kitchen with a painted wall -/

namespace Kitchen

/-- Sets a variable that is not asked about, and needs food for it. -/
def paint : Action where
  name := "paint"
  preconditions := .ofPairs [("food", .int 7)]
  effects := .ofPairs [("wall", .text "green")]
  baseCost := 1
  costRule := some (CostRule.perVariable 1 1)

/-- Sets nothing at all. -/
def hum : Action where
  name := "hum"
  baseCost := 0

/-- The world with a painted wall, and with another absent food. -/
def paintedWorld : State := .ofPairs [("scale", .float .nan), ("wall", .text "green")]

theorem plan_depends_on_mentioned_kitchen :
    world.AgreesOn (mentioned wanted catalog) paintedWorld ∧
      Inserts (Action.Spares (mentioned wanted catalog)) [eat, cook] [hum, eat, paint, cook, hum] ∧
      RegressivePlanner.plan ⟨false, true⟩ world wanted catalog =
        RegressivePlanner.plan ⟨false, true⟩ paintedWorld wanted catalog ∧
      RegressivePlanner.planCatalog ⟨false, true⟩ world wanted [eat, cook] =
        RegressivePlanner.planCatalog ⟨false, true⟩ world wanted [hum, eat, paint, cook, hum] ∧
      (RegressivePlanner.planCatalog ⟨false, true⟩ world wanted [hum, eat, paint, cook, hum]).names? =
        some ["cook", "eat"] := by
  have hagrees : world.AgreesOn (mentioned wanted catalog) paintedWorld := by decide +kernel
  have hinserts : Inserts (Action.Spares (mentioned wanted catalog)) [eat, cook] [hum, eat, paint, cook, hum] :=
    .insert hum (by decide +kernel) <| .keep eat <| .insert paint (by decide +kernel) <| .keep cook <|
      .insert hum (by decide +kernel) .nil
  obtain ⟨hstarts, hcatalogs⟩ := RegressivePlanner.plan_depends_on_mentioned ⟨false, true⟩ wanted
  exact ⟨hagrees, hinserts, hstarts catalog world paintedWorld hagrees, hcatalogs world _ _ hinserts,
    by decide +kernel⟩

end Kitchen

end GoalRegression
