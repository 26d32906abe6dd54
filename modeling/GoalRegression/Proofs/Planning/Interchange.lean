/-
Equal states are interchangeable. States are equal where they hold the same values up to the sign of a zero, so equal
states need not be the same, and an operation could tell them apart. None does: what changes states takes equal ones to
equal ones, what compares them gives one verdict, and a node of either has its children through the same actions in
the same order (`expanding_congr`), in states that are pairwise equal. Hence what descends from one state descends from
the other up to equality (`Problem.Congruent.descends`), and a search that has expanded the one may pass over the other
(`interchangeable_of_beq`).
-/
import GoalRegression.Proofs.Planning.Completeness
import GoalRegression.Proofs.Regression.Expansion
import GoalRegression.Proofs.State.Update

namespace GoalRegression

/-! ## Operations -/

namespace State

variable {a b c d : State} {key : String} {v w : Value}

theorem set_congr (h : (a == b) = true) (hv : (v == w) = true) (key : String) :
    (a.set key v == b.set key w) = true := by
  refine beq_iff_content.2 (funext fun k => ?_)
  rw [content_set, content_set, beq_iff_content.1 h, Value.beq_iff.1 hv]

theorem remove_congr (h : (a == b) = true) (key : String) : (a.remove key == b.remove key) = true := by
  refine beq_iff_content.2 (funext fun k => ?_)
  rw [content_remove, content_remove, beq_iff_content.1 h]

theorem apply_congr (h : (a == b) = true) (hcd : (c == d) = true) : (a.apply c == b.apply d) = true := by
  refine beq_iff_content.2 (funext fun k => ?_)
  rw [content_apply, content_apply, beq_iff_content.1 h, beq_iff_content.1 hcd]

theorem fulfills_congr (h : (a == b) = true) (hv : (v == w) = true) (key : String) :
    a.fulfills key v = b.fulfills key w := by
  have hdefault : v.isDefault = w.isDefault := by
    rw [← v.isDefault_canonical, Value.beq_iff.1 hv, w.isDefault_canonical]
  rw [Bool.eq_iff_iff, fulfills_iff, fulfills_iff, beq_iff_content.1 h, Value.beq_iff.1 hv, hdefault]

theorem isSubstateOf_congr (h : (a == b) = true) (hcd : (c == d) = true) : a.isSubstateOf c = b.isSubstateOf d :=
  isSuperstateOf_congr hcd h

/-- Equal states have entries of the same names, pairwise equal. -/
theorem forall₂_toList (h : (a == b) = true) :
    List.Forall₂ (fun d e => d.1 = e.1 ∧ (d.2 == e.2) = true) a.toList b.toList := by
  have hentries := beq_iff_canonicalEntries_toList.1 h
  generalize a.toList = xs at hentries
  generalize b.toList = ys at hentries
  induction xs generalizing ys with
  | nil =>
    cases ys with
    | nil => exact .nil
    | cons e ys => cases hentries
  | cons d xs ih =>
    cases ys with
    | nil => cases hentries
    | cons e ys =>
      obtain ⟨hhead, hrest⟩ := List.cons.inj hentries
      obtain ⟨hkey, hvalue⟩ := Prod.mk.inj hhead
      exact .cons ⟨hkey, Value.beq_iff.2 hvalue⟩ (ih ys hrest)

end State

/-! ## Children -/

theorem byFirstMatch_congr {ε : Type v} {α : Type u} {isMatch : ε → α → Bool} {keys keys' : List ε}
    (h : List.Forall₂ (fun e e' => isMatch e = isMatch e') keys keys') (l : List α) :
    byFirstMatch isMatch keys l = byFirstMatch isMatch keys' l := by
  induction h generalizing l with
  | nil => rfl
  | cons he _ ih => rw [byFirstMatch, byFirstMatch, he, ih]

/-- Two lists each of which goes with a third go with each other. -/
theorem forall₂_of_common {α : Type u} {β : Type v} {γ : Type w} {R : γ → α → Prop} {S : γ → β → Prop}
    {T : α → β → Prop} {zs : List γ} {xs : List α} {ys : List β} (hxs : List.Forall₂ R zs xs)
    (hys : List.Forall₂ S zs ys) (h : ∀ z x y, R z x → S z y → T x y) : List.Forall₂ T xs ys := by
  induction hxs generalizing ys with
  | nil =>
    cases hys
    exact .nil
  | cons hx _ ih =>
    cases hys with
    | cons hy hys => exact .cons (h _ _ _ hx hy) (ih hys)

theorem Action.gives_congr {d e : String × Value} (hkey : d.1 = e.1) (hvalue : (d.2 == e.2) = true) (a : Action) :
    a.gives d = a.gives e := by
  unfold gives
  rw [hkey]
  refine congrArg (fun p => Option.any p _) (funext fun v => ?_)
  rw [Bool.eq_iff_iff, Value.beq_iff, Value.beq_iff, Value.beq_iff.1 hvalue]

namespace ActionSet

variable {actions : ActionSet} {start a b : State}

theorem discharging_congr (h : (a == b) = true) : actions.discharging a = actions.discharging b := by
  have hmatch : List.Forall₂ (fun d e => (fun x : Action × Nat => x.1.gives d) = fun x => x.1.gives e)
      a.toList b.toList :=
    (State.forall₂_toList h).imp fun d e hde => funext fun x => x.1.gives_congr hde.1 hde.2
  rw [discharging_eq, discharging_eq, byFirstMatch_congr hmatch]

/-- Equal states are expanded through the same actions in the same order. -/
theorem expanding_congr (h : (a == b) = true) : actions.expanding a = actions.expanding b := by
  have hregress : ∀ {s t : State}, (s == t) = true → ∀ id, ((actions.action? id).bind s.regress?).isSome = true →
      ((actions.action? id).bind t.regress?).isSome = true := by
    intro s t hst id hsome
    rw [Option.isSome_iff_exists] at hsome ⊢
    obtain ⟨next, hnext⟩ := hsome
    obtain ⟨action, haction, hnext⟩ := Option.bind_eq_some_iff.1 hnext
    obtain ⟨next', hnext', -⟩ := State.regress?_congr hst hnext
    exact ⟨next', Option.bind_eq_some_iff.2 ⟨action, haction, hnext'⟩⟩
  unfold expanding
  rw [discharging_congr h]
  refine List.filter_congr fun id _ => ?_
  rw [Bool.eq_iff_iff]
  exact ⟨hregress h id, hregress (BEq.symm h) id⟩

/-- Children of equal states through one action: of equal states, and estimated alike. -/
theorem Yields.congr {id id' : NodeId} {node node' child child' : Node} {action : ActionId}
    (h : (node.state == node'.state) = true) (hchild : actions.Yields start id node action child)
    (hchild' : actions.Yields start id' node' action child') :
    child.action = child'.action ∧ (child.state == child'.state) = true ∧ child.estimate = child'.estimate := by
  obtain ⟨a, next, ha, hnext, rfl⟩ := hchild
  obtain ⟨a', next', ha', hnext', rfl⟩ := hchild'
  obtain rfl : a = a' := Option.some.inj (ha.symm.trans ha')
  obtain ⟨next'', hnext'', hbeq⟩ := State.regress?_congr h hnext
  obtain rfl : next' = next'' := Option.some.inj (hnext'.symm.trans hnext'')
  exact ⟨rfl, hbeq, State.distanceTo_congr_left hbeq start⟩

end ActionSet

/-- From equal states the same actions lead to equal states. -/
theorem Problem.Congruent.descends {p : Problem} (hp : p.Congruent) {a b state : State} {path : List Action}
    (h : (a == b) = true) (hdescends : p.Descends a state path) :
    ∃ state', p.Descends b state' path ∧ (state == state') = true := by
  induction hdescends with
  | root => exact ⟨b, .root, h⟩
  | @step state path step _ hstep ih =>
    obtain ⟨state', hdescends', hbeq⟩ := ih
    obtain ⟨step', hstep', haction, hstate, -⟩ := hp.steps _ _ hbeq step hstep
    exact ⟨step'.state, haction ▸ hdescends'.step hstep', BEq.symm hstate⟩

/-- Equal states cannot be told apart by a search. They are the same for the target test and for the states that were
expanded before. Nodes of them are expanded through the same actions in the same order, into children that are
pairwise equal, so whatever descends from the one descends from the other. Nor can they be told apart by the other
operations, which give equal results also if further states and values are exchanged for equal ones. -/
theorem interchangeable_of_beq {a b : State} (h : (a == b) = true) :
    (∀ (actions : ActionSet) (start : State),
      (actions.problem start).isTarget a = (actions.problem start).isTarget b) ∧
    (∀ expanded : List State, expanded.contains a = expanded.contains b) ∧
    (∀ (actions : ActionSet) (start : State) (id id' : NodeId) (node node' : Node), node.state = a → node'.state = b →
      (∃ ids, List.Forall₂ (actions.Yields start id node) ids (actions.expand start id node) ∧
        List.Forall₂ (actions.Yields start id' node') ids (actions.expand start id' node')) ∧
      List.Forall₂ (fun child child' => child.action = child'.action ∧ (child.state == child'.state) = true ∧
        child.estimate = child'.estimate) (actions.expand start id node) (actions.expand start id' node')) ∧
    (∀ (actions : ActionSet) (start state : State) (path : List Action),
      (actions.problem start).Descends a state path →
        ∃ state', (actions.problem start).Descends b state' path ∧ (state == state') = true) ∧
    (∀ (key : String) (v w : Value), (v == w) = true →
      (a.set key v == b.set key w) = true ∧ a.fulfills key v = b.fulfills key w) ∧
    (∀ key : String, (a.remove key == b.remove key) = true) ∧
    ∀ c d : State, (c == d) = true → (a.apply c == b.apply d) = true ∧ a.isSubstateOf c = b.isSubstateOf d := by
  refine ⟨fun actions start => State.isSuperstateOf_congr BEq.rfl h, fun expanded => List.contains_congr h, ?_,
    fun actions start state path => ActionSet.congruent_problem.descends h,
    fun key v w hv => ⟨State.set_congr h hv key, State.fulfills_congr h hv key⟩, State.remove_congr h,
    fun c d hcd => ⟨State.apply_congr h hcd, State.isSubstateOf_congr h hcd⟩⟩
  rintro actions start id id' node node' rfl rfl
  have hchildren := actions.forall₂_expanding start id node
  have hchildren' := actions.forall₂_expanding start id' node'
  rw [← ActionSet.expanding_congr h] at hchildren'
  exact ⟨⟨_, hchildren, hchildren'⟩, forall₂_of_common hchildren hchildren' fun _ _ _ => ActionSet.Yields.congr h⟩

/-! ## Two ovens -/

namespace Bakery

/-- What is owed, with the oven at the negative zero. -/
def owedBelow : State := .ofPairs [("bread", .int 1), ("oven", .float (.zero true)), ("scale", .float .nan)]

/-- The two zeros are told apart where they are stored, and nowhere else. -/
theorem interchangeable_of_beq_ovens :
    (owed == owedBelow) = true ∧ owed.toList ≠ owedBelow.toList ∧
      (catalog.problem world).isTarget owed = (catalog.problem world).isTarget owedBelow ∧
      List.Forall₂ (fun child child' => child.action = child'.action ∧ (child.state == child'.state) = true ∧
        child.estimate = child'.estimate) (catalog.expand world ⟨0⟩ (.root owed))
          (catalog.expand world ⟨0⟩ (.root owedBelow)) ∧
      (catalog.expand world ⟨0⟩ (.root owed)).length = 1 ∧
      (owed.set "oven" (.float (.zero true)) == owedBelow.set "oven" (.float (.zero false))) = true := by
  have heq : (owed == owedBelow) = true := by decide +kernel
  have hzero : (Value.float (.zero true) == .float (.zero false)) = true := by decide +kernel
  obtain ⟨htarget, -, hchildren, -, hvalues, -⟩ := interchangeable_of_beq heq
  exact ⟨heq, by decide +kernel, htarget catalog world,
    (hchildren catalog world ⟨0⟩ ⟨0⟩ (.root owed) (.root owedBelow) rfl rfl).2, by decide +kernel,
    (hvalues "oven" _ _ hzero).1⟩

end Bakery

end GoalRegression
