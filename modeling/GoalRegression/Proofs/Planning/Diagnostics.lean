/-
What is there for people to read plays no part in planning. A search that keeps a record ends as one that keeps none
does, with the same plan (`plan_eq_of_createDebugGraph`). And names stand for nothing: planning settles on positions
of the catalog and reads the actions off there, so under other names it gives the same outline with the other actions
put in (`exists_outline`).
-/
import GoalRegression.Proofs.Planning.Termination
import GoalRegression.Proofs.Regression.Order
import GoalRegression.Proofs.Search.Alike
import GoalRegression.Proofs.Search.Record

namespace GoalRegression

/-! ## The record -/

theorem Problem.alike_refl (p : Problem) : p.Alike Eq p where
  target _ := rfl
  steps _ := List.forall₂_same.2 fun _ _ => ⟨rfl, rfl, rfl⟩
  cost _ _ h _ := by rw [h]

/-- With a record or without, the search ends in the same way and the plan is the same. There is a search tree
exactly if one was asked for, however the search ends. -/
theorem RegressivePlanner.plan_eq_of_createDebugGraph (earlyExit : Bool) (start goal : State) (actions : ActionSet) :
    (plan ⟨earlyExit, true⟩ start goal actions).plan = (plan ⟨earlyExit, false⟩ start goal actions).plan ∧
      (search ⟨earlyExit, true⟩ start goal actions).ending = (search ⟨earlyExit, false⟩ start goal actions).ending ∧
      ∀ createDebugGraph, (plan ⟨earlyExit, createDebugGraph⟩ start goal actions).searchTree.isSome =
        createDebugGraph := by
  obtain ⟨hending, hsearch⟩ := Search.run_alike (actions.problem start).alike_refl earlyExit
    ((Requirements.ofGoal goal actions).rounds actions) (Search.alike_start Eq goal true false)
  refine ⟨?_, hending, fun createDebugGraph => ?_⟩
  · rcases Outcome.actions?_cases hending hsearch with ⟨hnone, hnone'⟩ | ⟨path, path', hpath, hpath', hsame⟩
    · exact hnone.trans hnone'.symm
    · rw [List.forall₂_eq_eq_eq] at hsame
      exact hpath.trans ((congrArg some hsame).trans hpath'.symm)
  · exact Option.isSome_map.trans (Search.isSome_edges_run ..)

/-! ## Names -/

/-- The actions of a catalog under other names, by position. -/
def renamed (catalog : List Action) (names : Fin catalog.length → String) (i : Fin catalog.length) : Action :=
  { catalog.get i with name := names i }

/-- The outcome of planning with positions in the stead of actions. -/
structure Outline (ι : Type) where
  plan : Option (List ι)
  /-- Nodes, each with the position of its action, and transitions, from a node to a node. -/
  tree : Option (List (Node × Option ι) × List (NodeId × NodeId × ι))

namespace Outline

section

variable {ι : Type} (action : ι → Action)

def fillNode (n : Node × Option ι) : Node := { n.1 with action := n.2.map action }

def fillEdge (e : NodeId × NodeId × ι) : TreeEdge := ⟨e.1, e.2.1, action e.2.2⟩

def fillTree (t : List (Node × Option ι) × List (NodeId × NodeId × ι)) : SearchTree :=
  ⟨(t.1.map (fillNode action)).toArray, (t.2.map (fillEdge action)).toArray⟩

/-- Puts in the actions that stand at the positions. -/
def fill (o : Outline ι) : PlanningResult := ⟨o.plan.map (·.map action), o.tree.map (fillTree action)⟩

end

/-! ## What can be filled in in two ways -/

variable {ι : Type} {f g : ι → Action}

/-- The actions stand at the same position. -/
def SamePosition (f g : ι → Action) (a b : Action) : Prop := ∃ i, f i = a ∧ g i = b

theorem exists_map_of_forall₂ {α : Type u} {β : Type v} {γ : Type w} {F : α → β} {G : α → γ} {xs : List β}
    {ys : List γ} (h : List.Forall₂ (fun x y => ∃ i, F i = x ∧ G i = y) xs ys) :
    ∃ is : List α, is.map F = xs ∧ is.map G = ys := by
  induction h with
  | nil => exact ⟨[], rfl, rfl⟩
  | cons hxy _ ih =>
    obtain ⟨i, rfl, rfl⟩ := hxy
    obtain ⟨is, rfl, rfl⟩ := ih
    exact ⟨i :: is, rfl, rfl⟩

theorem exists_fillNode {node node' : Node} (h : node.Alike (SamePosition f g) node') :
    ∃ n, fillNode f n = node ∧ fillNode g n = node' := by
  obtain ⟨state, action, parent, level, runningCost, estimate⟩ := node
  obtain ⟨state', action', parent', level', runningCost', estimate'⟩ := node'
  obtain ⟨haction, rfl, rfl, rfl, rfl, rfl⟩ := h
  cases haction with
  | none => exact ⟨(⟨state, none, parent, level, runningCost, estimate⟩, none), rfl, rfl⟩
  | some hsame =>
    obtain ⟨i, rfl, rfl⟩ := hsame
    exact ⟨(⟨state, none, parent, level, runningCost, estimate⟩, some i), rfl, rfl⟩

theorem exists_fillEdge {edge edge' : TreeEdge} (h : edge.Alike (SamePosition f g) edge') :
    ∃ e, fillEdge f e = edge ∧ fillEdge g e = edge' := by
  obtain ⟨source, target, action⟩ := edge
  obtain ⟨source', target', action'⟩ := edge'
  obtain ⟨rfl, rfl, i, rfl, rfl⟩ := h
  exact ⟨(source, target, i), rfl, rfl⟩

/-- Searches alike up to positions have one outline. -/
theorem exists_fill {o o' : Outcome} (hending : o.ending = o'.ending)
    (h : o.search.Alike (SamePosition f g) o'.search)
    (hrecord : o.search.edges.isSome = o'.search.edges.isSome) :
    ∃ outline : Outline ι, o.result = outline.fill f ∧ o'.result = outline.fill g := by
  have hplan : ∃ plan : Option (List ι), plan.map (·.map f) = o.actions? ∧ plan.map (·.map g) = o'.actions? := by
    rcases Outcome.actions?_cases hending h with ⟨hnone, hnone'⟩ | ⟨path, path', hpath, hpath', hsame⟩
    · exact ⟨none, hnone.symm, hnone'.symm⟩
    · obtain ⟨is, rfl, rfl⟩ := exists_map_of_forall₂ hsame
      exact ⟨some is, hpath.symm, hpath'.symm⟩
  have htree : ∃ tree, Option.map (fillTree f) tree = o.tree? ∧ Option.map (fillTree g) tree = o'.tree? := by
    unfold Outcome.tree?
    cases hedges : o.search.edges with
    | none =>
      rw [hedges] at hrecord
      rw [Option.isNone_iff_eq_none.1 (Option.isSome_eq_false_iff.1 hrecord.symm)]
      exact ⟨none, rfl, rfl⟩
    | some edges =>
      rw [hedges] at hrecord
      obtain ⟨edges', hedges'⟩ := Option.isSome_iff_exists.1 hrecord.symm
      obtain ⟨es, hes, hes'⟩ :=
        exists_map_of_forall₂ ((h.edges edges edges' hedges hedges').imp fun _ _ => exists_fillEdge)
      obtain ⟨ns, hns, hns'⟩ := exists_map_of_forall₂ (h.nodes.imp fun _ _ => exists_fillNode)
      refine ⟨some (ns, es), ?_, ?_⟩
      · simp [fillTree, hns, hes]
      · simp [fillTree, hns', hes', hedges']
  obtain ⟨plan, hplan, hplan'⟩ := hplan
  obtain ⟨tree, htree, htree'⟩ := htree
  refine ⟨⟨plan, tree⟩, ?_, ?_⟩
  · unfold Outcome.result fill
    rw [hplan, htree]
  · unfold Outcome.result fill
    rw [hplan', htree']

/-! ## What determines the outline -/

theorem map_factorsThrough {α : Type u} {β : Type v} {γ : Type w} {F : α → β} {G : α → γ}
    (h : G.FactorsThrough F) : (List.map G).FactorsThrough (List.map F) := by
  intro xs ys hxy
  induction xs generalizing ys with
  | nil => rw [List.map_nil, eq_comm, List.map_eq_nil_iff] at hxy; rw [hxy]
  | cons x xs ih =>
    cases ys with
    | nil => cases hxy
    | cons y ys =>
      obtain ⟨hhead, htail⟩ := List.cons.inj hxy
      rw [List.map_cons, List.map_cons, h hhead, ih htail]

theorem optionMap_factorsThrough {α : Type u} {β : Type v} {γ : Type w} {F : α → β} {G : α → γ}
    (h : G.FactorsThrough F) : (Option.map G).FactorsThrough (Option.map F) := by
  rintro (_ | x) (_ | y) hxy
  · rfl
  · cases hxy
  · cases hxy
  · exact congrArg some (h (Option.some.inj hxy))

theorem fillNode_factorsThrough (h : g.FactorsThrough f) : (fillNode g).FactorsThrough (fillNode f) := by
  rintro ⟨⟨_, _, _, _, _, _⟩, i⟩ ⟨⟨_, _, _, _, _, _⟩, j⟩ hxy
  simp only [fillNode, Node.mk.injEq] at hxy ⊢
  obtain ⟨rfl, haction, rfl, rfl, rfl, rfl⟩ := hxy
  exact ⟨rfl, optionMap_factorsThrough h haction, rfl, rfl, rfl, rfl⟩

theorem fillEdge_factorsThrough (h : g.FactorsThrough f) : (fillEdge g).FactorsThrough (fillEdge f) := by
  rintro ⟨_, _, i⟩ ⟨_, _, j⟩ hxy
  simp only [fillEdge, TreeEdge.mk.injEq] at hxy ⊢
  obtain ⟨rfl, rfl, haction⟩ := hxy
  exact ⟨rfl, rfl, h haction⟩

theorem fillTree_factorsThrough (h : g.FactorsThrough f) : (fillTree g).FactorsThrough (fillTree f) := by
  rintro ⟨_, _⟩ ⟨_, _⟩ hxy
  obtain ⟨hnodes, hedges⟩ := SearchTree.mk.inj hxy
  refine (SearchTree.mk.injEq ..).mpr ⟨?_, ?_⟩
  · exact congrArg List.toArray (map_factorsThrough (fillNode_factorsThrough h) (List.toArray_inj hnodes))
  · exact congrArg List.toArray (map_factorsThrough (fillEdge_factorsThrough h) (List.toArray_inj hedges))

/-- Where the actions tell the positions apart, what is filled in determines what other actions give. -/
theorem fill_factorsThrough (h : g.FactorsThrough f) : (fill g).FactorsThrough (fill f) := by
  rintro ⟨_, _⟩ ⟨_, _⟩ hxy
  simp only [fill, PlanningResult.mk.injEq] at hxy ⊢
  exact ⟨optionMap_factorsThrough (map_factorsThrough h) hxy.1,
    optionMap_factorsThrough (fillTree_factorsThrough h) hxy.2⟩

end Outline

/-! ## Planning under two sets of names -/

section

variable {catalog : List Action} (names names' : Fin catalog.length → String) (start goal : State)

/-- The valid actions under other names. -/
theorem toList_ofCatalog_renamed :
    (ActionSet.ofCatalog (List.ofFn (renamed catalog names))).actions.toList =
      ((List.finRange catalog.length).filter fun i => (catalog.get i).valid).map (renamed catalog names) := by
  show (List.ofFn (renamed catalog names)).filter (·.valid) = _
  rw [List.ofFn_eq_map, List.filter_map]
  rfl

/-- The steps from an owed state go through actions at positions that are settled without names. -/
theorem regressions_renamed (owed : State) :
    (ActionSet.ofCatalog (List.ofFn (renamed catalog names))).regressions start owed =
      (byFirstMatch (fun e i => (catalog.get i).gives e) owed.toList
        ((List.finRange catalog.length).filter fun i => (catalog.get i).valid)).filterMap
          fun i => (renamed catalog names i).step? start owed := by
  rw [ActionSet.regressions_eq, toList_ofCatalog_renamed, byFirstMatch_map, List.filterMap_map]
  rfl

theorem problem_alike_renamed :
    ((ActionSet.ofCatalog (List.ofFn (renamed catalog names))).problem start).Alike
      (Outline.SamePosition (renamed catalog names) (renamed catalog names'))
      ((ActionSet.ofCatalog (List.ofFn (renamed catalog names'))).problem start) where
  target _ := rfl
  steps owed := by
    show List.Forall₂ _ (ActionSet.regressions _ start owed) (ActionSet.regressions _ start owed)
    rw [regressions_renamed, regressions_renamed]
    refine List.rel_filterMap (R := Eq) ?_ (List.forall₂_same.2 fun _ _ => rfl)
    rintro i _ rfl
    show Option.Rel _ ((owed.regress? (catalog.get i)).map _) ((owed.regress? (catalog.get i)).map _)
    cases owed.regress? (catalog.get i) with
    | none => exact .none
    | some next => exact .some ⟨⟨i, rfl, rfl⟩, rfl, rfl⟩
  cost a a' h state := by
    obtain ⟨i, rfl, rfl⟩ := h
    rfl

theorem rounds_renamed :
    (Requirements.ofGoal goal (ActionSet.ofCatalog (List.ofFn (renamed catalog names)))).rounds
        (ActionSet.ofCatalog (List.ofFn (renamed catalog names))) =
      (Requirements.ofGoal goal (ActionSet.ofCatalog (List.ofFn (renamed catalog names')))).rounds
        (ActionSet.ofCatalog (List.ofFn (renamed catalog names'))) := by
  have hsize : ∀ names, (ActionSet.ofCatalog (List.ofFn (renamed catalog names))).size =
      ((List.finRange catalog.length).filter fun i => (catalog.get i).valid).length := by
    intro names
    have := congrArg List.length (toList_ofCatalog_renamed names)
    rwa [Array.length_toList, List.length_map] at this
  unfold Requirements.rounds Requirements.ofGoal
  rw [toList_ofCatalog_renamed, toList_ofCatalog_renamed, List.flatMap_map, List.flatMap_map, hsize, hsize]
  rfl

/-- Under any two sets of names planning has one outline. -/
theorem exists_outline_of_names (planner : RegressivePlanner) :
    ∃ outline : Outline (Fin catalog.length),
      planner.planCatalog start goal (List.ofFn (renamed catalog names)) = outline.fill (renamed catalog names) ∧
        planner.planCatalog start goal (List.ofFn (renamed catalog names')) =
          outline.fill (renamed catalog names') := by
  have hsearch' : planner.search start goal (.ofCatalog (List.ofFn (renamed catalog names'))) =
      Search.run ((ActionSet.ofCatalog (List.ofFn (renamed catalog names'))).problem start) planner.earlyExit
        ((Requirements.ofGoal goal (.ofCatalog (List.ofFn (renamed catalog names)))).rounds
          (.ofCatalog (List.ofFn (renamed catalog names)))) (Search.start goal planner.createDebugGraph) := by
    rw [rounds_renamed names names' goal]
    rfl
  obtain ⟨hending, hsearch⟩ := Search.run_alike (problem_alike_renamed names names' start) planner.earlyExit
    ((Requirements.ofGoal goal (.ofCatalog (List.ofFn (renamed catalog names)))).rounds _)
    (Search.alike_start _ goal planner.createDebugGraph planner.createDebugGraph)
  rw [← hsearch'] at hending hsearch
  exact Outline.exists_fill hending hsearch ((Search.isSome_edges_run ..).trans (Search.isSome_edges_run ..).symm)

end

/-! ## Planning under all names -/

/-- A name for each position. -/
def mark (i : Nat) : String := String.ofList (List.replicate i '|')

theorem mark_injective : Function.Injective mark := by
  intro i j h
  have := congrArg List.length (String.ofList_injective h)
  rwa [List.length_replicate, List.length_replicate] at this

theorem renamed_mark_injective (catalog : List Action) :
    Function.Injective (renamed catalog fun i => mark i) := by
  intro i j h
  exact Fin.ext (mark_injective (congrArg Action.name h))

/-- Planning does not look at names: for a catalog there is one outline, and whatever names the actions get, empty and
shared ones too, the plan and the search tree are the outline with the actions of these names put in. -/
theorem RegressivePlanner.exists_outline (planner : RegressivePlanner) (start goal : State) (catalog : List Action) :
    ∃ outline : Outline (Fin catalog.length),
      planner.planCatalog start goal catalog = outline.fill catalog.get ∧
        ∀ names : Fin catalog.length → String, planner.planCatalog start goal (List.ofFn (renamed catalog names)) =
          outline.fill (renamed catalog names) := by
  -- names that tell the positions apart determine the outline
  obtain ⟨outline, hmarked, hown⟩ :=
    exists_outline_of_names (fun i => mark i) (fun i => (catalog.get i).name) start goal planner
  refine ⟨outline, ?_, fun names => ?_⟩
  · have hsame : renamed catalog (fun i => (catalog.get i).name) = catalog.get := rfl
    rwa [hsame, List.ofFn_get] at hown
  · obtain ⟨outline', hmarked', hnames⟩ := exists_outline_of_names (fun i => mark i) names start goal planner
    rw [hnames]
    exact Outline.fill_factorsThrough ((renamed_mark_injective catalog).factorsThrough _) (hmarked'.symm.trans hmarked)

end GoalRegression
