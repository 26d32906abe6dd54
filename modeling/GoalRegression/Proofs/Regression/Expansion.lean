/-
The children of a node by the walk that finds them: over the owed variables in the order of their names and, for
each, over the candidates in catalog order, where an action that has a child already is passed over
(`ActionSet.expand`). The walk finds the children of the regressions (`expand_eq`). They are those of the actions
that discharge a part of what is owed and contradict nothing of it (`Action.Discharges`), one for each, and they come
by the first owed variable that their action sets, then in catalog order (`expand_exact`).
-/
import GoalRegression.Proofs.Regression.Order

namespace GoalRegression

/-! ## Actions that discharge -/

/-- The action pays off a part of what is owed and contradicts nothing of it. -/
structure Action.Discharges (a : Action) (owed : State) : Prop where
  /-- It sets some owed variable. -/
  shares : ∃ key, a.effects.contains key = true ∧ owed.contains key = true
  /-- What it sets and what is owed are equal under every name that both have. -/
  pays : ∀ key v w, a.effects.value? key = some v → owed.value? key = some w → (v == w) = true
  /-- What it needs and what is owed are equal under every name that both have, unless the action sets it. -/
  keeps : ∀ key v w, a.preconditions.value? key = some v → owed.value? key = some w →
    a.effects.contains key = false → (v == w) = true

/-- The first owed variable, in the order of names, that the action sets. -/
structure Action.LeastTouched (a : Action) (owed : State) (key : String) : Prop where
  sets : a.effects.contains key = true
  owes : owed.contains key = true
  least : ∀ key', a.effects.contains key' = true → owed.contains key' = true → compare key' key ≠ .lt

section

variable {a : Action} {owed : State}

/-- The discharging actions are those that set an owed variable and through which the state regresses. -/
theorem Action.discharges_iff :
    a.Discharges owed ↔ a.touches owed = true ∧ ∃ next, owed.regress? a = some next := by
  have hkeeps : a.preconditions.AgreeWhereShared (owed.without a.effects) ↔
      ∀ key v w, a.preconditions.value? key = some v → owed.value? key = some w →
        a.effects.contains key = false → (v == w) = true := by
    refine forall_congr' fun key => forall_congr' fun v => forall_congr' fun w => forall_congr' fun _ => ?_
    rw [State.value?_without]
    cases a.effects.contains key <;> simp
  simp only [State.regress?_eq_some_iff, touches_iff_contains, State.clashesWith_eq_false_iff_agreeWhereShared,
    hkeeps, exists_and_left, exists_eq', and_true]
  exact ⟨fun h => ⟨h.shares, h.pays, h.keeps⟩, fun ⟨hshares, hpays, hkeeps⟩ => ⟨hshares, hpays, hkeeps⟩⟩

/-- A discharging action gives an owed variable its value as soon as it sets it. -/
theorem Action.Discharges.gives_eq (h : a.Discharges owed) {e : String × Value} (he : e ∈ owed.toList) :
    a.gives e = a.effects.contains e.1 := by
  unfold gives
  cases hv : a.effects.value? e.1 with
  | none => exact (Option.isSome_eq_false_iff.2 (Option.isNone_iff_eq_none.2 hv)).symm
  | some v =>
    rw [State.contains_iff.2 ⟨v, hv⟩, Option.any_some]
    exact h.pays e.1 v e.2 hv (State.mem_toList_iff.1 he)

/-- The first entry whose value a discharging action gives is that of the first owed variable that it sets. -/
theorem Action.Discharges.leastTouched (h : a.Discharges owed) {e : String × Value}
    (hfind : owed.toList.find? (a.gives ·) = some e) : a.LeastTouched owed e.1 := by
  obtain ⟨hgives, before, after, hlist, hbefore⟩ := List.find?_eq_some_iff_append.1 hfind
  have he : e ∈ owed.toList := List.mem_of_find?_eq_some hfind
  refine ⟨(h.gives_eq he).symm.trans hgives, State.contains_iff.2 ⟨e.2, State.mem_toList_iff.1 he⟩, ?_⟩
  intro key hset howed hlt
  obtain ⟨w, hw⟩ := State.contains_iff.1 howed
  have hmem := State.mem_toList_iff.2 hw
  have hgiven : a.gives (key, w) = true := (h.gives_eq hmem).trans hset
  have hascending := owed.ascending_toList
  rw [hlist] at hmem hascending
  -- an entry of a smaller name stands before `e`, and there no value is given
  rcases List.mem_append.1 hmem with hmem | hmem
  · simpa [hgiven] using hbefore _ hmem
  · rcases List.mem_cons.1 hmem with rfl | hmem
    · exact absurd hlt (by rw [show compare key key = .eq from Std.ReflCmp.compare_self]; decide)
    · have hgt := (List.pairwise_cons.1 (List.pairwise_append.1 hascending).2.1).1 _ hmem
      rw [Std.OrientedCmp.gt_of_lt hgt] at hlt
      cases hlt

end

/-! ## The order of matches -/

section ByFirstMatch

variable {ε : Type v} {α : Type u} {isMatch : ε → α → Bool} {keys : List ε} {l : List α}

theorem exists_find?_of_mem_byFirstMatch {x : α} (h : x ∈ byFirstMatch isMatch keys l) :
    ∃ e, keys.find? (isMatch · x) = some e := by
  induction keys generalizing l with
  | nil => cases h
  | cons e rest ih =>
    by_cases hx : isMatch e x = true
    · exact ⟨e, List.find?_cons_of_pos hx⟩
    · rw [List.find?_cons_of_neg (p := (isMatch · x)) hx]
      rcases List.mem_append.1 h with h | h
      · exact absurd (List.mem_filter.1 h).2 hx
      · exact ih h

/-- Among the matches one stands before another if its first key does, or if they share it and it does itself. -/
theorem pairwise_byFirstMatch {K : ε → ε → Prop} {R : α → α → Prop} (hkeys : keys.Pairwise K) (hl : l.Pairwise R) :
    (byFirstMatch isMatch keys l).Pairwise fun x y => ∃ e f, keys.find? (isMatch · x) = some e ∧
      keys.find? (isMatch · y) = some f ∧ (K e f ∨ e = f ∧ R x y) := by
  induction keys generalizing l with
  | nil => exact .nil
  | cons e rest ih =>
    obtain ⟨hhead, hrest⟩ := List.pairwise_cons.1 hkeys
    have hrestMatch : ∀ x ∈ byFirstMatch isMatch rest (l.filter fun a => !isMatch e a),
        (e :: rest).find? (isMatch · x) = rest.find? (isMatch · x) := by
      intro x hx
      have := (List.mem_filter.1 (mem_of_mem_byFirstMatch hx)).2
      exact List.find?_cons_of_neg (by simpa using this)
    refine List.pairwise_append.2 ⟨?_, ?_, ?_⟩
    · refine (hl.filter _).imp_of_mem fun {x y} hx hy hxy => ⟨e, e, ?_, ?_, .inr ⟨rfl, hxy⟩⟩
      · exact List.find?_cons_of_pos (List.mem_filter.1 hx).2
      · exact List.find?_cons_of_pos (List.mem_filter.1 hy).2
    · refine (ih hrest (hl.filter _)).imp_of_mem fun {x y} hx hy hxy => ?_
      rw [hrestMatch x hx, hrestMatch y hy]
      exact hxy
    · intro x hx y hy
      obtain ⟨f, hf⟩ := exists_find?_of_mem_byFirstMatch hy
      refine ⟨e, f, List.find?_cons_of_pos (List.mem_filter.1 hx).2, ?_, .inl (hhead f (List.mem_of_find?_eq_some hf))⟩
      rw [hrestMatch y hy, hf]

end ByFirstMatch

/-! ## The walk -/

/-- Where a walk stands: the children so far, and the actions that they go through. -/
structure Expansion where
  expanded : List ActionId
  children : List Node

namespace ActionSet

variable (actions : ActionSet) (start : State) (id : NodeId) (node : Node)

/-- One candidate for an owed variable. It is passed over if its action has a child already or gives another value,
and leads to no child if the state does not regress through the action. -/
def consider (target : Value) (x : Expansion) (c : Candidate) : Expansion :=
  if x.expanded.contains c.id || c.value != target then x
  else
    match actions.action? c.id with
    | none => x
    | some a =>
      match node.state.regress? a with
      | none => x
      | some next =>
        { expanded := c.id :: x.expanded
          children := x.children ++ [.child id node ⟨a, next, next.distanceTo start true⟩] }

/-- All candidates for an owed variable. -/
def considerAll (x : Expansion) (e : String × Value) : Expansion :=
  match actions.lookup e.1 with
  | none => x
  | some candidates => candidates.foldl (actions.consider start id node e.2) x

/-- The children of a node: for every owed variable, in the order of names, all its candidates. -/
def expand : List Node := (node.state.toList.foldl (actions.considerAll start id node) ⟨[], []⟩).children

/-- The actions that give the variable of an entry the value it has there, in catalog order. -/
def giving (e : String × Value) : List ActionId :=
  (((actions.lookup e.1).getD []).filter (·.value == e.2)).map (·.id)

/-- The child of the node through an action of the set, if there is one. -/
def child? (action : ActionId) : Option Node :=
  (actions.action? action).bind fun a => (a.step? start node.state).map (.child id node)

end ActionSet

/-- The walk has come by the actions in `tried`: it has a child of each that has one, and notes these. -/
structure Expansion.Covers (child? : ActionId → Option Node) (x : Expansion) (tried : List ActionId) : Prop where
  children_eq : x.children = tried.eraseDups.filterMap child?
  mem_expanded_iff : ∀ action, action ∈ x.expanded ↔ action ∈ tried ∧ (child? action).isSome = true

theorem eraseDups_concat {α : Type u} [BEq α] [LawfulBEq α] (l : List α) (a : α) :
    (l ++ [a]).eraseDups = if a ∈ l then l.eraseDups else l.eraseDups ++ [a] := by
  rw [List.eraseDups_append]
  by_cases ha : a ∈ l
  · simp [List.removeAll, ha]
  · simp [List.removeAll, ha, List.eraseDups_cons]

namespace ActionSet

variable {actions : ActionSet} {start : State} {id : NodeId} {node : Node} {x : Expansion} {tried : List ActionId}

theorem consider_eq (target : Value) (x : Expansion) (c : Candidate) :
    actions.consider start id node target x c =
      if c.id ∈ x.expanded ∨ (c.value == target) = false then x
      else match actions.child? start id node c.id with
        | none => x
        | some child => ⟨c.id :: x.expanded, x.children ++ [child]⟩ := by
  unfold consider child? Action.step?
  by_cases hguard : c.id ∈ x.expanded ∨ (c.value == target) = false
  · rw [if_pos hguard, if_pos (by simpa [bne] using hguard)]
  · rw [if_neg hguard, if_neg (by simpa [bne] using hguard)]
    cases actions.action? c.id with
    | none => rfl
    | some a =>
      dsimp only [Option.bind_some]
      cases node.state.regress? a <;> rfl

/-- One candidate more: its action counts as tried if it gives the owed value. Tried again it adds nothing, whether it
has a child or not. -/
theorem covers_consider (h : x.Covers (actions.child? start id node) tried) (target : Value) (c : Candidate) :
    (actions.consider start id node target x c).Covers (actions.child? start id node)
      (if c.value == target then tried ++ [c.id] else tried) := by
  rw [consider_eq]
  by_cases hvalue : (c.value == target) = true
  · rw [if_pos hvalue]
    by_cases hexpanded : c.id ∈ x.expanded
    · have htried := ((h.mem_expanded_iff _).1 hexpanded).1
      rw [if_pos (.inl hexpanded)]
      refine ⟨?_, fun action => ?_⟩
      · rw [eraseDups_concat, if_pos htried, h.children_eq]
      · rw [h.mem_expanded_iff, List.mem_append, List.mem_singleton]
        grind
    · rw [if_neg (by simp [hexpanded, hvalue])]
      cases hchild : actions.child? start id node c.id with
      | none =>
        refine ⟨?_, fun action => ?_⟩
        · rw [h.children_eq, eraseDups_concat]
          split
          · rfl
          · rw [List.filterMap_append, List.filterMap_cons_none hchild, List.filterMap_nil, List.append_nil]
        · rw [h.mem_expanded_iff, List.mem_append, List.mem_singleton]
          grind
      | some child =>
        -- had it been tried, it would have a child
        have htried : c.id ∉ tried := fun ht => hexpanded ((h.mem_expanded_iff _).2 ⟨ht, by rw [hchild]; rfl⟩)
        refine ⟨?_, fun action => ?_⟩
        · rw [eraseDups_concat, if_neg htried, List.filterMap_append, h.children_eq, List.filterMap_cons_some hchild,
            List.filterMap_nil]
        · rw [List.mem_cons, h.mem_expanded_iff, List.mem_append, List.mem_singleton]
          grind
  · rw [if_neg hvalue, if_pos (.inr (by simpa using hvalue))]
    exact h

theorem covers_foldl_consider (h : x.Covers (actions.child? start id node) tried) (target : Value)
    (candidates : List Candidate) :
    (candidates.foldl (actions.consider start id node target) x).Covers (actions.child? start id node)
      (tried ++ (candidates.filter (·.value == target)).map (·.id)) := by
  induction candidates generalizing x tried with
  | nil => simpa using h
  | cons c candidates ih =>
    have hnext := ih (covers_consider h target c)
    rw [List.foldl_cons, List.filter_cons]
    by_cases hvalue : (c.value == target) = true
    · rw [if_pos hvalue, List.append_assoc] at hnext
      rwa [if_pos hvalue]
    · rw [if_neg hvalue] at hnext
      rwa [if_neg hvalue]

theorem covers_considerAll (h : x.Covers (actions.child? start id node) tried) (e : String × Value) :
    (actions.considerAll start id node x e).Covers (actions.child? start id node) (tried ++ actions.giving e) := by
  unfold considerAll giving
  cases actions.lookup e.1 with
  | none => simpa using h
  | some candidates => exact covers_foldl_consider h e.2 candidates

theorem covers_foldl_considerAll (h : x.Covers (actions.child? start id node) tried)
    (entries : List (String × Value)) :
    (entries.foldl (actions.considerAll start id node) x).Covers (actions.child? start id node)
      (tried ++ entries.flatMap actions.giving) := by
  induction entries generalizing x tried with
  | nil => simpa using h
  | cons e entries ih =>
    rw [List.foldl_cons, List.flatMap_cons, ← List.append_assoc]
    exact ih (covers_considerAll h e)

/-- The walk comes by the discharging actions, each at its first chance. -/
theorem expand_eq_filterMap (actions : ActionSet) (start : State) (id : NodeId) (node : Node) :
    actions.expand start id node = (actions.discharging node.state).filterMap (actions.child? start id node) := by
  have hnothing : (⟨[], []⟩ : Expansion).Covers (actions.child? start id node) [] :=
    ⟨rfl, fun action => by simp⟩
  exact (covers_foldl_considerAll hnothing node.state.toList).children_eq

theorem regressions_eq_filterMap (actions : ActionSet) (start owed : State) :
    actions.regressions start owed =
      (actions.discharging owed).filterMap fun action => (actions.action? action).bind (·.step? start owed) := by
  unfold regressions
  refine List.filterMap_congr fun action _ => ?_
  cases actions.action? action with
  | none => rfl
  | some a =>
    rw [Option.bind_some, Option.bind_eq_bind, Option.bind_some]
    unfold Action.step?
    cases owed.regress? a <;> rfl

/-- The walk finds the children of the regressions. -/
theorem expand_eq (actions : ActionSet) (start : State) (id : NodeId) (node : Node) :
    actions.expand start id node = (actions.regressions start node.state).map (.child id node) := by
  rw [expand_eq_filterMap, regressions_eq_filterMap, List.map_filterMap]
  refine List.filterMap_congr fun action _ => ?_
  unfold child?
  cases actions.action? action <;> rfl

/-! ## The children -/

/-- The actions with a child, in the order of the children. -/
def expanding (actions : ActionSet) (owed : State) : List ActionId :=
  (actions.discharging owed).filter fun action => ((actions.action? action).bind owed.regress?).isSome

/-- One action stands before another: by the first owed variable that it sets, then by its position. -/
def Precedes (actions : ActionSet) (owed : State) (i j : ActionId) : Prop :=
  ∃ a b key key', actions.action? i = some a ∧ actions.action? j = some b ∧
    a.LeastTouched owed key ∧ b.LeastTouched owed key' ∧ (compare key key' = .lt ∨ key = key' ∧ i.index < j.index)

theorem mem_expanding_iff {owed : State} {action : ActionId} :
    action ∈ actions.expanding owed ↔ ∃ a, actions.action? action = some a ∧ a.Discharges owed := by
  unfold expanding
  rw [List.mem_filter, Option.isSome_iff_exists]
  simp only [Action.discharges_iff, mem_discharging_iff, Option.bind_eq_some_iff]
  constructor
  · rintro ⟨⟨a, key, v, ha, hv, hw⟩, next, a', ha', hnext⟩
    obtain rfl : a = a' := Option.some.inj (ha.symm.trans ha')
    exact ⟨a, ha, Action.touches_iff.2 ⟨key, v, v, hv, hw⟩, next, hnext⟩
  · rintro ⟨a, ha, htouch, next, hnext⟩
    obtain ⟨key, v, w, hv, hw⟩ := Action.touches_iff.1 htouch
    obtain rfl : v = w := State.effects_agree_of_regress? hnext hv hw
    exact ⟨⟨a, key, v, ha, hv, hw⟩, next, a, ha, hnext⟩

theorem pairwise_expanding (actions : ActionSet) (owed : State) :
    (actions.expanding owed).Pairwise (actions.Precedes owed) := by
  have hdischarging : (actions.discharging owed).Pairwise fun i j => ∃ a b e f, actions.action? i = some a ∧
      actions.action? j = some b ∧ owed.toList.find? (a.gives ·) = some e ∧ owed.toList.find? (b.gives ·) = some f ∧
      (compare e.1 f.1 = .lt ∨ e = f ∧ i.index < j.index) := by
    rw [discharging_eq, List.pairwise_map]
    refine (pairwise_byFirstMatch owed.ascending_toList actions.pairwise_zipIdx).imp_of_mem ?_
    rintro ⟨a, i⟩ ⟨b, j⟩ hi hj ⟨e, f, he, hf, horder⟩
    exact ⟨a, b, e, f, action?_of_mem_byFirstMatch hi, action?_of_mem_byFirstMatch hj, he, hf, horder⟩
  unfold expanding
  refine (hdischarging.filter _).imp_of_mem ?_
  rintro i j hi hj ⟨a, b, e, f, ha, hb, he, hf, horder⟩
  obtain ⟨a', ha', hadischarges⟩ := mem_expanding_iff.1 hi
  obtain ⟨b', hb', hbdischarges⟩ := mem_expanding_iff.1 hj
  obtain rfl : a = a' := Option.some.inj (ha.symm.trans ha')
  obtain rfl : b = b' := Option.some.inj (hb.symm.trans hb')
  refine ⟨a, b, e.1, f.1, ha, hb, hadischarges.leastTouched he, hbdischarges.leastTouched hf, ?_⟩
  rcases horder with hlt | ⟨rfl, hlt⟩
  · exact .inl hlt
  · exact .inr ⟨rfl, hlt⟩

theorem nodup_expanding (actions : ActionSet) (owed : State) : (actions.expanding owed).Nodup :=
  nodup_discharging.filter _

/-- The child is the node's child through the action at this position: what the action leaves of what is owed, and its
preconditions. -/
def Yields (actions : ActionSet) (start : State) (id : NodeId) (node : Node) (action : ActionId) (child : Node) :
    Prop :=
  ∃ a next, actions.action? action = some a ∧ node.state.regress? a = some next ∧
    child = .child id node ⟨a, next, next.distanceTo start true⟩

theorem yields_iff {action : ActionId} {child : Node} :
    actions.Yields start id node action child ↔ actions.child? start id node action = some child := by
  unfold Yields child? Action.step?
  simp only [Option.bind_eq_some_iff, Option.map_eq_some_iff]
  constructor
  · rintro ⟨a, next, ha, hnext, rfl⟩
    exact ⟨a, ha, _, ⟨next, hnext, rfl⟩, rfl⟩
  · rintro ⟨a, ha, _, ⟨next, hnext, rfl⟩, rfl⟩
    exact ⟨a, next, ha, hnext, rfl⟩

theorem forall₂_expanding (actions : ActionSet) (start : State) (id : NodeId) (node : Node) :
    List.Forall₂ (actions.Yields start id node) (actions.expanding node.state) (actions.expand start id node) := by
  rw [expand_eq_filterMap]
  unfold expanding
  induction actions.discharging node.state with
  | nil => exact .nil
  | cons action rest ih =>
    have hsome : ((actions.action? action).bind node.state.regress?).isSome =
        (actions.child? start id node action).isSome := by
      unfold child? Action.step?
      cases actions.action? action with
      | none => rfl
      | some a => simp
    rw [List.filter_cons, hsome]
    cases hchild : actions.child? start id node action with
    | none =>
      rw [List.filterMap_cons_none hchild]
      exact ih
    | some child =>
      rw [List.filterMap_cons_some hchild]
      exact .cons (yields_iff.2 hchild) ih

/-- The walk finds the children of the regressions. They go one to one with the discharging actions of the set, so an
action that pays off several variables has a single child, and they come by the first owed variable that their action
sets, then in catalog order. -/
theorem expand_exact (actions : ActionSet) (start : State) (id : NodeId) (node : Node) :
    actions.expand start id node = (actions.regressions start node.state).map (.child id node) ∧
    ∃ ids : List ActionId,
      List.Forall₂ (actions.Yields start id node) ids (actions.expand start id node) ∧
      (∀ action, action ∈ ids ↔ ∃ a, actions.action? action = some a ∧ a.Discharges node.state) ∧
      ids.Nodup ∧ ids.Pairwise (actions.Precedes node.state) :=
  ⟨expand_eq actions start id node, actions.expanding node.state, forall₂_expanding actions start id node,
    fun _ => mem_expanding_iff, nodup_expanding actions node.state, pairwise_expanding actions node.state⟩

/-- What pays off the axe and the wood has one child, before what pays off the wood alone; what spoils the wood that it
does not pay off, or needs other wood than is owed, has none. -/
example :
    let axe : Value := .bool true
    let wood : Value := .int 2
    let action (name : String) (preconditions effects : List (String × Value)) : Action :=
      { name, preconditions := .ofPairs preconditions, effects := .ofPairs effects, baseCost := 1 }
    let catalog : ActionSet := .ofCatalog
      [action "chop" [("axe", axe)] [("wood", wood)], action "burn" [] [("axe", axe), ("wood", .int 0)],
        action "trade" [] [("axe", axe), ("wood", wood)], action "swap" [("wood", .int 1)] [("axe", axe)]]
    (catalog.expand .empty ⟨0⟩ (.root (.ofPairs [("wood", wood), ("axe", axe)]))).map (·.action.map (·.name)) =
      [some "trade", some "chop"] := by decide +kernel

end ActionSet

end GoalRegression
