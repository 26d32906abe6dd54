/-
One round of a search as a relation (`Round`): everything that serving the head of the frontier can do, and
what it makes of the search in any case (`Round.effect`). A run is a number of rounds that go on, and then a
round that ends it or no rounds left (`run_cases`), so what each round keeps holds at the end of every run
(`run_invariant`). Also what adding children changes in a search, field by field.
-/
import GoalRegression.Proofs.PriorityQueue.Pending
import GoalRegression.Search.Run

namespace GoalRegression

/-! ## The arena -/

namespace Arena

variable {arena : Arena} {node : Node} {id : NodeId}

theorem lt_size_of_get? (h : arena.get? id = some node) : id.index < arena.size :=
  (Array.getElem?_eq_some_iff.1 h).1

theorem exists_get?_of_lt {i : Nat} (h : i < arena.size) : ∃ node, arena.get? ⟨i⟩ = some node :=
  ⟨_, Array.getElem?_eq_getElem h⟩

theorem get?_push (arena : Arena) (node : Node) (id : NodeId) :
    (arena.push node).get? id = if id.index = arena.size then some node else arena.get? id := by
  unfold push get? size
  rw [Array.getElem?_push]

theorem get?_push_of_some {new : Node} (h : arena.get? id = some node) :
    (arena.push new).get? id = some node := by
  have := lt_size_of_get? h
  rw [get?_push, if_neg (by omega), h]

@[simp] theorem size_push (arena : Arena) (node : Node) : (arena.push node).size = arena.size + 1 :=
  Array.size_push ..

end Arena

namespace Search

/-! ## The root -/

theorem get?_start {root : State} {record : Bool} {id : NodeId} {node : Node}
    (h : (start root record).arena.get? id = some node) : id = ⟨0⟩ ∧ node = .root root := by
  have : id.index < 1 := Arena.lt_size_of_get? h
  obtain rfl : id = ⟨0⟩ := congrArg NodeId.mk (by omega)
  cases h
  exact ⟨rfl, rfl⟩

theorem pending_start (root : State) (record : Bool) :
    (start root record).frontier.pending = [((PriorityQueue.empty : PriorityQueue NodeId).key 0, ⟨0⟩)] :=
  PriorityQueue.pending_enqueue ..

/-! ## Adding children -/

theorem get?_add (s : Search) (id new : NodeId) (node : Node) (step : Step) :
    (s.add id node step).arena.get? new =
      if new.index = s.arena.size then some (.child id node step) else s.arena.get? new :=
  Arena.get?_push ..

theorem get?_add_nextId (s : Search) (id : NodeId) (node : Node) (step : Step) :
    (s.add id node step).arena.get? s.arena.nextId = some (.child id node step) :=
  (get?_add ..).trans (if_pos rfl)

theorem mem_pending_add {s : Search} {id : NodeId} {node : Node} {step : Step} {e : Int × NodeId} :
    e ∈ (s.add id node step).frontier.pending ↔
      e = (s.frontier.key (Node.child id node step).totalCost, s.arena.nextId) ∨ e ∈ s.frontier.pending :=
  (s.frontier.pending_enqueue_perm _ _).mem_iff.trans List.mem_cons

/-- The search with the nodes that the steps lead to from the node `id`, added one after the other. -/
def addSteps (s : Search) (id : NodeId) (node : Node) (steps : List Step) : Search :=
  steps.foldl (fun s step => s.add id node step) s

section AddSteps

variable {id : NodeId} {node : Node} {steps : List Step}

@[simp] theorem addSteps_nil (s : Search) : s.addSteps id node [] = s := rfl

theorem addSteps_cons (s : Search) (step : Step) :
    s.addSteps id node (step :: steps) = (s.add id node step).addSteps id node steps := rfl

theorem addSteps_append (s : Search) (more : List Step) :
    s.addSteps id node (steps ++ more) = (s.addSteps id node steps).addSteps id node more :=
  List.foldl_append

/-- What adding one child keeps, adding several keeps. -/
theorem addSteps_invariant {I : Search → Prop} (hadd : ∀ s step, I s → I (s.add id node step)) {s : Search}
    (hs : I s) : I (s.addSteps id node steps) := by
  induction steps generalizing s with
  | nil => exact hs
  | cons step steps ih => exact ih (hadd s step hs)

@[simp] theorem visited_addSteps (s : Search) : (s.addSteps id node steps).visited = s.visited :=
  addSteps_invariant (I := fun t => t.visited = s.visited) (fun _ _ h => h) rfl

@[simp] theorem expansions_addSteps (s : Search) : (s.addSteps id node steps).expansions = s.expansions :=
  addSteps_invariant (I := fun t => t.expansions = s.expansions) (fun _ _ h => h) rfl

@[simp] theorem factor_addSteps (s : Search) :
    (s.addSteps id node steps).frontier.factor = s.frontier.factor :=
  addSteps_invariant (I := fun t => t.frontier.factor = s.frontier.factor) (fun _ _ h => h) rfl

@[simp] theorem size_addSteps (s : Search) :
    (s.addSteps id node steps).arena.size = s.arena.size + steps.length := by
  induction steps generalizing s with
  | nil => rfl
  | cons step steps ih =>
    rw [addSteps_cons, ih, List.length_cons]
    show (s.arena.push _).size + steps.length = _
    rw [Arena.size_push]
    omega

theorem wellFormed_addSteps {s : Search} (h : s.frontier.WellFormed) :
    (s.addSteps id node steps).frontier.WellFormed :=
  addSteps_invariant (I := fun t => t.frontier.WellFormed) (fun _ _ ht => ht.enqueue _ _) h

theorem length_pending_addSteps (s : Search) :
    (s.addSteps id node steps).frontier.pending.length = s.frontier.pending.length + steps.length := by
  induction steps generalizing s with
  | nil => rfl
  | cons step steps ih =>
    rw [addSteps_cons, ih, List.length_cons]
    have := (s.frontier.pending_enqueue_perm (Node.child id node step).totalCost s.arena.nextId).length_eq
    rw [List.length_cons] at this
    show (s.frontier.enqueue _ _).pending.length + steps.length = _
    omega

/-- Nodes stay where they are. -/
theorem get?_addSteps_of_some {s : Search} {old : NodeId} {n : Node} (h : s.arena.get? old = some n) :
    (s.addSteps id node steps).arena.get? old = some n :=
  addSteps_invariant (I := fun t => t.arena.get? old = some n) (fun _ _ ht => Arena.get?_push_of_some ht) h

/-- What waits goes on waiting. -/
theorem mem_pending_addSteps_of_mem {s : Search} {e : Int × NodeId} (h : e ∈ s.frontier.pending) :
    e ∈ (s.addSteps id node steps).frontier.pending :=
  addSteps_invariant (I := fun t => e ∈ t.frontier.pending) (fun _ _ ht => mem_pending_add.2 (.inr ht)) h

/-- What waits after adding children waited before, or is the child of one of the steps. -/
theorem mem_pending_addSteps {s : Search} {e : Int × NodeId}
    (h : e ∈ (s.addSteps id node steps).frontier.pending) :
    e ∈ s.frontier.pending ∨ ∃ step ∈ steps, e.1 = s.frontier.key (Node.child id node step).totalCost ∧
      (s.addSteps id node steps).arena.get? e.2 = some (.child id node step) := by
  induction steps generalizing s with
  | nil => exact .inl h
  | cons step steps ih =>
    rcases ih h with h | ⟨step', hmem, hkey, hget⟩
    · rcases mem_pending_add.1 h with rfl | h
      · refine .inr ⟨step, List.mem_cons_self, rfl, ?_⟩
        rw [addSteps_cons]
        exact get?_addSteps_of_some (get?_add_nextId ..)
      · exact .inl h
    · exact .inr ⟨step', List.mem_cons_of_mem _ hmem, hkey, hget⟩

/-- Every step has its child. -/
theorem exists_child_of_mem {s : Search} {step : Step} (h : step ∈ steps) :
    ∃ new, (s.addSteps id node steps).arena.get? new = some (.child id node step) := by
  induction steps generalizing s with
  | nil => cases h
  | cons first steps ih =>
    rcases List.mem_cons.1 h with rfl | h
    · refine ⟨s.arena.nextId, ?_⟩
      rw [addSteps_cons]
      exact get?_addSteps_of_some (get?_add_nextId ..)
    · exact ih h

/-- A node after adding children was there before, or is the child of one of the steps and waits. -/
theorem get?_addSteps {s : Search} {new : NodeId} {n : Node}
    (h : (s.addSteps id node steps).arena.get? new = some n) :
    s.arena.get? new = some n ∨ s.arena.size ≤ new.index ∧ ∃ step ∈ steps, n = .child id node step ∧
      (s.frontier.key n.totalCost, new) ∈ (s.addSteps id node steps).frontier.pending := by
  induction steps generalizing s with
  | nil => exact .inl h
  | cons step steps ih =>
    rcases ih h with h | ⟨hsize, step', hmem, hn, hpending⟩
    · rw [get?_add] at h
      split at h
      · next hnew =>
        cases h
        obtain rfl : new = s.arena.nextId := congrArg NodeId.mk hnew
        refine .inr ⟨Nat.le_refl _, step, List.mem_cons_self, rfl, ?_⟩
        rw [addSteps_cons]
        exact mem_pending_addSteps_of_mem (mem_pending_add.2 (.inl rfl))
      · exact .inl h
    · refine .inr ⟨Nat.le_trans ?_ hsize, step', List.mem_cons_of_mem _ hmem, hn, hpending⟩
      show s.arena.size ≤ (s.arena.push _).size
      rw [Arena.size_push]
      exact Nat.le_succ _

end AddSteps

/-- Adding the steps of an expansion adds all of them, or with early exit all up to the first to a target. -/
theorem addAll_cases (isTarget : State → Bool) (earlyExit : Bool) (id : NodeId) (node : Node) (s : Search)
    (steps : List Step) :
    (addAll isTarget earlyExit id node s steps = (s.addSteps id node steps, none) ∧
      (earlyExit = true → ∀ step ∈ steps, isTarget step.state = false)) ∨
    ∃ before step after, steps = before ++ step :: after ∧ earlyExit = true ∧
      (∀ t ∈ before, isTarget t.state = false) ∧ isTarget step.state = true ∧
      addAll isTarget earlyExit id node s steps =
        (s.addSteps id node (before ++ [step]), some (s.addSteps id node before).arena.nextId) := by
  induction steps generalizing s with
  | nil => exact .inl ⟨rfl, fun _ _ h => absurd h List.not_mem_nil⟩
  | cons step rest ih =>
    rw [addAll]
    split
    · next h =>
      obtain ⟨hexit, htarget⟩ := Bool.and_eq_true_iff.1 h
      exact .inr ⟨[], step, rest, rfl, hexit, fun _ h => absurd h List.not_mem_nil, htarget, rfl⟩
    · next h =>
      have hstep : earlyExit = true → isTarget step.state = false := by
        intro hexit
        rw [hexit, Bool.true_and] at h
        exact Bool.not_eq_true _ ▸ h
      rcases ih (s.add id node step) with ⟨heq, hnone⟩ | ⟨before, found, after, rfl, hexit, hbefore, htarget, heq⟩
      · refine .inl ⟨heq, fun hexit t ht => ?_⟩
        rcases List.mem_cons.1 ht with rfl | ht
        · exact hstep hexit
        · exact hnone hexit t ht
      · refine .inr ⟨step :: before, found, after, rfl, hexit, fun t ht => ?_, htarget, heq⟩
        rcases List.mem_cons.1 ht with rfl | ht
        · exact hstep hexit
        · exact hbefore t ht

theorem addAll_of_forall {isTarget : State → Bool} {earlyExit : Bool} {id : NodeId} {node : Node} {s : Search}
    {steps : List Step} (h : earlyExit = true → ∀ step ∈ steps, isTarget step.state = false) :
    addAll isTarget earlyExit id node s steps = (s.addSteps id node steps, none) := by
  rcases addAll_cases isTarget earlyExit id node s steps with
    ⟨heq, -⟩ | ⟨before, step, after, rfl, hexit, -, htarget, -⟩
  · exact heq
  · rw [h hexit step (by simp)] at htarget
    cases htarget

theorem addAll_append_cons {isTarget : State → Bool} {id : NodeId} {node : Node} {s : Search}
    {before after : List Step} {step : Step} (hbefore : ∀ t ∈ before, isTarget t.state = false)
    (hstep : isTarget step.state = true) :
    addAll isTarget true id node s (before ++ step :: after) =
      (s.addSteps id node (before ++ [step]), some ⟨s.arena.size + before.length⟩) := by
  induction before generalizing s with
  | nil => simp [addAll, hstep, addSteps_cons, Arena.nextId]
  | cons first before ih =>
    have hfirst := hbefore first List.mem_cons_self
    have hsize : (s.add id node first).arena.size = s.arena.size + 1 := Arena.size_push ..
    rw [List.cons_append, addAll, hfirst, if_neg (by simp), ih fun t ht => hbefore t (List.mem_cons_of_mem _ ht),
      hsize, List.length_cons, Nat.add_assoc, Nat.add_comm 1]
    rfl

/-! ## Rounds -/

/-- The search after the head of its frontier has left it. -/
def withFrontier (s : Search) (frontier : PriorityQueue NodeId) : Search := { s with frontier }

/-- What one round makes of a search, and how the search ends with it if it does. -/
inductive Round (p : Problem) (earlyExit : Bool) (s : Search) : Search → Option Ending → Prop
  | exhausted (hpop : s.frontier.pop? = none) : Round p earlyExit s s (some .exhausted)
  | unknown {id frontier} (hpop : s.frontier.pop? = some (id, frontier)) (hnode : s.arena.get? id = none) :
    Round p earlyExit s (s.withFrontier frontier) none
  | skipped {id frontier node} (hpop : s.frontier.pop? = some (id, frontier))
    (hnode : s.arena.get? id = some node) (hvisited : s.visited.contains node.state = true) :
    Round p earlyExit s (s.withFrontier frontier) none
  | found {id frontier node} (hpop : s.frontier.pop? = some (id, frontier))
    (hnode : s.arena.get? id = some node) (hvisited : s.visited.contains node.state = false)
    (htarget : p.isTarget node.state = true) :
    Round p earlyExit s (s.withFrontier frontier) (some (.found id))
  | expanded {id frontier node} (hpop : s.frontier.pop? = some (id, frontier))
    (hnode : s.arena.get? id = some node) (hvisited : s.visited.contains node.state = false)
    (htarget : p.isTarget node.state = false)
    (hnone : earlyExit = true → ∀ step ∈ p.steps node.state, p.isTarget step.state = false) :
    Round p earlyExit s (((s.withFrontier frontier).visit id node.state (p.steps node.state).length).addSteps
      id node (p.steps node.state)) none
  | reached {id frontier node before step after} (hpop : s.frontier.pop? = some (id, frontier))
    (hnode : s.arena.get? id = some node) (hvisited : s.visited.contains node.state = false)
    (htarget : p.isTarget node.state = false) (hsteps : p.steps node.state = before ++ step :: after)
    (hexit : earlyExit = true) (hbefore : ∀ t ∈ before, p.isTarget t.state = false)
    (hstep : p.isTarget step.state = true) :
    Round p earlyExit s (((s.withFrontier frontier).visit id node.state (p.steps node.state).length).addSteps
      id node (before ++ [step])) (some (.reached ⟨s.arena.size + before.length⟩))

variable {p : Problem} {earlyExit : Bool}

/-- All nodes of the first search are nodes of the second. -/
def Extends (s s' : Search) : Prop := ∀ id node, s.arena.get? id = some node → s'.arena.get? id = some node

theorem mem_expansions_visit {s : Search} {id : NodeId} {state : State} {children : Nat} {e : NodeId × Nat} :
    e ∈ (s.visit id state children).expansions.toList ↔ e ∈ s.expansions.toList ∨ e = (id, children) := by
  simp [visit]

/-- What a round does to the search, however it ends: nothing, or it takes the head from the frontier, and it may
expand that node into children by the first of its steps. -/
theorem Round.effect {s s' : Search} {ending : Option Ending} (h : Round p earlyExit s s' ending) :
    s' = s ∨ ∃ id frontier, s.frontier.pop? = some (id, frontier) ∧
      (s' = s.withFrontier frontier ∨ ∃ node steps, s.arena.get? id = some node ∧
        s.visited.contains node.state = false ∧ p.isTarget node.state = false ∧ steps <+: p.steps node.state ∧
        s' = ((s.withFrontier frontier).visit id node.state (p.steps node.state).length).addSteps id node steps) := by
  cases h with
  | exhausted => exact .inl rfl
  | unknown hpop | skipped hpop | found hpop => exact .inr ⟨_, _, hpop, .inl rfl⟩
  | expanded hpop hnode hvisited htarget =>
    exact .inr ⟨_, _, hpop, .inr ⟨_, _, hnode, hvisited, htarget, List.prefix_rfl, rfl⟩⟩
  | @reached id frontier node before step after hpop hnode hvisited htarget hsteps =>
    refine .inr ⟨_, _, hpop, .inr ⟨_, _, hnode, hvisited, htarget, ⟨after, ?_⟩, rfl⟩⟩
    rw [hsteps, List.append_assoc, List.singleton_append]

theorem Round.extends {s s' : Search} {ending : Option Ending} (h : Round p earlyExit s s' ending) :
    s.Extends s' := by
  intro id node hnode
  rcases h.effect with rfl | ⟨_, _, -, rfl | ⟨_, _, -, -, -, -, rfl⟩⟩
  · exact hnode
  · exact hnode
  · exact get?_addSteps_of_some hnode

/-- There is always a round to do. -/
theorem exists_round (p : Problem) (earlyExit : Bool) (s : Search) :
    ∃ s' ending, Round p earlyExit s s' ending := by
  cases hpop : s.frontier.pop? with
  | none => exact ⟨_, _, .exhausted hpop⟩
  | some r =>
    obtain ⟨id, frontier⟩ := r
    cases hnode : s.arena.get? id with
    | none => exact ⟨_, _, .unknown hpop hnode⟩
    | some node =>
      cases hvisited : s.visited.contains node.state with
      | true => exact ⟨_, _, .skipped hpop hnode hvisited⟩
      | false =>
        cases htarget : p.isTarget node.state with
        | true => exact ⟨_, _, .found hpop hnode hvisited htarget⟩
        | false =>
          rcases addAll_cases p.isTarget earlyExit id node s (p.steps node.state) with
            ⟨-, hnone⟩ | ⟨before, step, after, hsteps, hexit, hbefore, hstep, -⟩
          · exact ⟨_, _, .expanded hpop hnode hvisited htarget hnone⟩
          · exact ⟨_, _, .reached hpop hnode hvisited htarget hsteps hexit hbefore hstep⟩

/-- A run with some rounds left does as its next round does. -/
theorem Round.run_eq {s s' : Search} {ending : Option Ending} (h : Round p earlyExit s s' ending) (rounds : Nat) :
    run p earlyExit (rounds + 1) s = ending.elim (run p earlyExit rounds s') fun ending => ⟨s', ending⟩ := by
  cases h with
  | exhausted hpop => simp [run, hpop]
  | unknown hpop hnode => simp [run, hpop, hnode, withFrontier]
  | skipped hpop hnode hvisited => simp [run, hpop, hnode, hvisited, withFrontier]
  | found hpop hnode hvisited htarget => simp [run, hpop, hnode, hvisited, htarget, withFrontier]
  | expanded hpop hnode hvisited htarget hnone =>
    simp [run, hpop, hnode, hvisited, htarget, withFrontier, addAll_of_forall hnone]
  | reached hpop hnode hvisited htarget hsteps hexit hbefore hstep =>
    subst hexit
    simp [run, hpop, hnode, hvisited, htarget, withFrontier, hsteps, addAll_append_cons hbefore hstep, visit]

/-- A run with some rounds left does one round, and ends or goes on with the other rounds. -/
theorem run_succ (p : Problem) (earlyExit : Bool) (s : Search) :
    (∃ s' ending, Round p earlyExit s s' (some ending) ∧
        ∀ rounds, run p earlyExit (rounds + 1) s = ⟨s', ending⟩) ∨
      ∃ s', Round p earlyExit s s' none ∧ ∀ rounds, run p earlyExit (rounds + 1) s = run p earlyExit rounds s' := by
  obtain ⟨s', ending, hround⟩ := exists_round p earlyExit s
  cases ending with
  | none => exact .inr ⟨s', hround, hround.run_eq⟩
  | some ending => exact .inl ⟨s', ending, hround, hround.run_eq⟩

/-- The second search comes from the first by this number of rounds, none of which ends it. -/
inductive Reaches (p : Problem) (earlyExit : Bool) (s : Search) : Nat → Search → Prop
  | refl : Reaches p earlyExit s 0 s
  | next {n s' s''} (h : Reaches p earlyExit s n s') (hround : Round p earlyExit s' s'' none) :
    Reaches p earlyExit s (n + 1) s''

theorem Reaches.head {s s' s'' : Search} {n : Nat} (hround : Round p earlyExit s s' none)
    (h : Reaches p earlyExit s' n s'') : Reaches p earlyExit s (n + 1) s'' := by
  induction h with
  | refl => exact .next .refl hround
  | next _ hlast ih => exact .next ih hlast

/-- What holds of a search and is kept by every round that goes on holds of all it reaches. -/
theorem Reaches.invariant {I : Search → Prop} (hround : ∀ s s', I s → Round p earlyExit s s' none → I s')
    {s s' : Search} {n : Nat} (h : Reaches p earlyExit s n s') (hs : I s) : I s' := by
  induction h with
  | refl => exact hs
  | next _ hlast ih => exact hround _ _ ih hlast

/-- A run uses up its rounds, or a round before that ends it. -/
theorem run_cases (p : Problem) (earlyExit : Bool) (rounds : Nat) (s : Search) :
    (∃ s', Reaches p earlyExit s rounds s' ∧ run p earlyExit rounds s = ⟨s', .unfinished⟩) ∨
      ∃ n s' s'' ending, n < rounds ∧ Reaches p earlyExit s n s' ∧ Round p earlyExit s' s'' (some ending) ∧
        run p earlyExit rounds s = ⟨s'', ending⟩ := by
  induction rounds generalizing s with
  | zero => exact .inl ⟨s, .refl, rfl⟩
  | succ rounds ih =>
    rcases run_succ p earlyExit s with ⟨s', ending, hround, heq⟩ | ⟨s', hround, heq⟩
    · exact .inr ⟨0, s, s', ending, Nat.succ_pos _, .refl, hround, heq rounds⟩
    · rw [heq]
      rcases ih s' with ⟨s'', hreach, heq'⟩ | ⟨n, s'', s''', ending, hn, hreach, hlast, heq'⟩
      · exact .inl ⟨s'', hreach.head hround, heq'⟩
      · exact .inr ⟨n + 1, s'', s''', ending, Nat.succ_lt_succ hn, hreach.head hround, hlast, heq'⟩

/-- What every round keeps, a run keeps. -/
theorem run_invariant {I : Search → Prop}
    (hround : ∀ s s' ending, I s → Round p earlyExit s s' ending → I s') (rounds : Nat) {s : Search} (hs : I s) :
    I (run p earlyExit rounds s).search := by
  rcases run_cases p earlyExit rounds s with ⟨s', hreach, heq⟩ | ⟨n, s', s'', ending, -, hreach, hlast, heq⟩
  · rw [heq]
    exact hreach.invariant (fun s s' => hround s s' none) hs
  · rw [heq]
    exact hround s' s'' ending (hreach.invariant (fun s s' => hround s s' none) hs) hlast

theorem run_extends (rounds : Nat) (s : Search) : s.Extends (run p earlyExit rounds s).search :=
  run_invariant (fun _ _ _ hs hround id node hnode => hround.extends id node (hs id node hnode)) rounds
    fun _ _ hnode => hnode

theorem Round.ending_ne_unfinished {s s' : Search} {ending : Ending}
    (h : Round p earlyExit s s' (some ending)) : ending ≠ .unfinished := by
  cases h <;> intro h <;> cases h

/-- More rounds than a run needs change nothing. -/
theorem run_add_of_finished {rounds : Nat} {s : Search} (h : (run p earlyExit rounds s).ending ≠ .unfinished)
    (more : Nat) : run p earlyExit (rounds + more) s = run p earlyExit rounds s := by
  induction rounds generalizing s with
  | zero => exact absurd rfl h
  | succ rounds ih =>
    have hcomm : rounds + 1 + more = rounds + more + 1 := by omega
    rw [hcomm]
    rcases run_succ p earlyExit s with ⟨s', ending, -, heq⟩ | ⟨s', -, heq⟩
    · rw [heq, heq]
    · rw [heq] at h
      rw [heq, heq, ih h]

end Search

end GoalRegression
