/-
A catalog filed in one pass: every valid action is kept at the next free position, and a candidate with that position
is put last under each variable that it sets (`Filing.file`). The positions stay those of the actions kept, whatever
is skipped and whatever sets nothing (`Filing.Files`), so the pass builds the set of the catalog
(`Filing.ofCatalog_eq`). Looked up in it, a variable has one candidate for each action that sets it, in the order of
positions, and nothing if there is none (`ActionSet.lookup_exact`).
-/
import GoalRegression.Proofs.Action.Index
import Mathlib.Data.List.Sort

namespace GoalRegression

/-! ## The pass -/

/-- Where a pass over a catalog stands: the actions kept, and the index of their effects. -/
structure Filing where
  actions : Array Action
  index : ActionIndex

namespace Filing

/-- One effect of the action at this position. -/
def fileEffect (id : ActionId) (index : ActionIndex) (e : String × Value) : ActionIndex :=
  index.update e.1 fun others => others.getD [] ++ [⟨id, e.2⟩]

/-- One action of the catalog. An invalid one is skipped. -/
def file (f : Filing) (a : Action) : Filing :=
  if a.valid then ⟨f.actions.push a, a.effects.toList.foldl (fileEffect ⟨f.actions.size⟩) f.index⟩ else f

def ofCatalog (catalog : List Action) : Filing := catalog.foldl file ⟨#[], .empty⟩

/-- The pass has kept the valid actions of `filed`, and its index is theirs. -/
structure Files (f : Filing) (filed : List Action) : Prop where
  actions_eq : f.actions.toList = filed.filter (·.valid)
  index_eq : f.index = ActionIndex.ofActions 0 f.actions.toList

end Filing

/-! ## Actions put last -/

namespace ActionIndex

/-- An action put last has its candidate last. -/
theorem candidates_concat (key : String) (first : Nat) (actions : List Action) (a : Action) :
    candidates key first (actions ++ [a]) =
      candidates key first actions ++
        ((a.effects.value? key).map fun v => ⟨⟨first + actions.length⟩, v⟩).toList := by
  unfold candidates
  rw [List.zipIdx_append, List.filterMap_append]
  cases hv : a.effects.value? key <;> simp [hv]

/-- Effects filed put their candidates last under the variables they set, and change nothing elsewhere. -/
theorem get?_foldl_fileEffect {effects : List (String × Value)}
    (he : effects.Pairwise fun a b => compare a.1 b.1 = .lt) (index : ActionIndex) (id : ActionId) (key : String) :
    (effects.foldl (Filing.fileEffect id) index).get? key =
      match SortedMap.lookup key effects with
      | some v => some ((index.get? key).getD [] ++ [⟨id, v⟩])
      | none => index.get? key := by
  have hfold := SortedMap.get?_foldl_update he (fun v others => others.getD [] ++ [(⟨id, v⟩ : Candidate)]) index key
  refine hfold.trans ?_
  cases SortedMap.lookup key effects <;> rfl

/-- The index of actions is that of all but the last with the effects of the last filed. -/
theorem ofActions_concat (actions : List Action) (a : Action) :
    ofActions 0 (actions ++ [a]) =
      a.effects.toList.foldl (Filing.fileEffect ⟨actions.length⟩) (ofActions 0 actions) := by
  refine SortedMap.ext_get? fun key => ?_
  rw [get?_foldl_fileEffect a.effects.ascending_toList, State.lookup_toList, get?_ofActions, get?_ofActions,
    candidates_concat, Nat.zero_add]
  cases a.effects.value? key with
  | none => simp
  | some v => by_cases hnil : candidates key 0 actions = [] <;> simp [hnil]

end ActionIndex

/-! ## What a pass keeps -/

namespace Filing

variable {f : Filing} {filed : List Action}

theorem files_file (h : f.Files filed) (a : Action) : (f.file a).Files (filed ++ [a]) := by
  unfold file
  cases hvalid : a.valid with
  | false =>
    rw [if_neg (by decide)]
    exact ⟨by simp [h.actions_eq, hvalid], h.index_eq⟩
  | true =>
    rw [if_pos rfl]
    constructor
    · simp [h.actions_eq, hvalid]
    · show _ = ActionIndex.ofActions 0 (f.actions.push a).toList
      rw [Array.toList_push, ActionIndex.ofActions_concat, ← h.index_eq, Array.length_toList]

theorem files_foldl_file (h : f.Files filed) (catalog : List Action) :
    (catalog.foldl file f).Files (filed ++ catalog) := by
  induction catalog generalizing f filed with
  | nil => simpa using h
  | cons a rest ih => simpa using ih (files_file h a)

/-- The pass builds the set of the catalog. -/
theorem ofCatalog_eq (catalog : List Action) :
    (ofCatalog catalog).actions = (ActionSet.ofCatalog catalog).actions ∧
      (ofCatalog catalog).index = (ActionSet.ofCatalog catalog).index := by
  have hempty : (⟨#[], .empty⟩ : Filing).Files [] := ⟨rfl, rfl⟩
  have hfiles : (ofCatalog catalog).Files catalog := files_foldl_file hempty catalog
  have hactions : (ofCatalog catalog).actions = (ActionSet.ofCatalog catalog).actions :=
    Array.toList_inj.1 hfiles.actions_eq
  refine ⟨hactions, ?_⟩
  rw [hfiles.index_eq, hactions, (ActionSet.ofCatalog catalog).index_eq]

end Filing

/-! ## Looking up -/

namespace ActionSet

/-- The list has one candidate for each action of the set that sets the variable, in the order of positions and with
the value that the action gives it. -/
structure Lists (set : ActionSet) (key : String) (candidates : List Candidate) : Prop where
  ascending : candidates.Pairwise fun c d => c.id.index < d.id.index
  gives : ∀ c ∈ candidates, ∃ a, set.action? c.id = some a ∧ a.effects.value? key = some c.value
  complete : ∀ id a, set.action? id = some a → a.effects.contains key = true → ∃ c ∈ candidates, c.id = id

variable {set : ActionSet} {key : String} {candidates : List Candidate}

theorem Lists.mem_iff (h : set.Lists key candidates) {c : Candidate} :
    c ∈ candidates ↔ ∃ a, set.action? c.id = some a ∧ a.effects.value? key = some c.value := by
  refine ⟨h.gives c, ?_⟩
  rintro ⟨a, ha, hv⟩
  obtain ⟨d, hd, hid⟩ := h.complete c.id a ha (State.contains_iff.2 ⟨_, hv⟩)
  obtain ⟨b, hb, hw⟩ := h.gives d hd
  obtain rfl : b = a := Option.some.inj (hb.symm.trans (hid ▸ ha))
  -- the candidate listed for the action has its value, so it is this one
  obtain rfl : d = c := by
    cases c
    cases d
    simp_all
  exact hd

/-- Lists of the same candidates are the same, as their positions ascend. -/
theorem Lists.eq {others : List Candidate} (h : set.Lists key candidates) (h' : set.Lists key others) :
    candidates = others := by
  have hasymm : Std.Antisymm fun c d : Candidate => c.id.index < d.id.index := ⟨fun _ _ hlt hgt => by omega⟩
  have hirrefl : Std.Irrefl fun c d : Candidate => c.id.index < d.id.index := ⟨fun _ => Nat.lt_irrefl _⟩
  exact h.ascending.eq_of_mem_iff h'.ascending fun c => h.mem_iff.trans h'.mem_iff.symm

theorem lists_lookup (set : ActionSet) (key : String) : set.Lists key ((set.lookup key).getD []) where
  ascending := by
    rw [lookup_eq]
    refine set.pairwise_zipIdx.filterMap _ ?_
    rintro ⟨a, i⟩ ⟨b, j⟩ hlt c hc d hd
    obtain ⟨v, -, rfl⟩ := Option.map_eq_some_iff.1 hc
    obtain ⟨w, -, rfl⟩ := Option.map_eq_some_iff.1 hd
    exact hlt
  gives c hc := mem_lookup_iff.1 hc
  complete id a ha hset := by
    obtain ⟨v, hv⟩ := State.contains_iff.1 hset
    exact ⟨⟨id, v⟩, mem_lookup_iff.2 ⟨a, ha, hv⟩, rfl⟩

theorem lookup_ne_some_nil (set : ActionSet) (key : String) : set.lookup key ≠ some [] := by
  unfold lookup
  rw [set.index_eq, ActionIndex.get?_ofActions]
  split
  · simp
  · next h => simpa using h

/-- What is looked up and found is the list of the candidates, which has one at least. -/
theorem lookup_eq_some_iff :
    set.lookup key = some candidates ↔ candidates ≠ [] ∧ set.Lists key candidates := by
  have hlists := set.lists_lookup key
  have hne := set.lookup_ne_some_nil key
  cases hlookup : set.lookup key with
  | none =>
    rw [hlookup] at hlists
    refine iff_of_false (by simp) ?_
    rintro ⟨hsome, h⟩
    exact hsome (h.eq hlists)
  | some found =>
    rw [hlookup] at hlists hne
    constructor
    · rintro ⟨⟩
      exact ⟨fun hnil => hne (congrArg some hnil), hlists⟩
    · rintro ⟨-, h⟩
      exact congrArg some (hlists.eq h)

theorem lookup_eq_none_iff : set.lookup key = none ↔ ∀ a ∈ set.actions, a.effects.contains key = false := by
  have hlists := set.lists_lookup key
  have hne := set.lookup_ne_some_nil key
  cases hlookup : set.lookup key with
  | none =>
    refine iff_of_true rfl fun a ha => Bool.eq_false_iff.2 fun hset => ?_
    rw [hlookup] at hlists
    obtain ⟨id, hid⟩ := mem_actions_iff.1 ha
    obtain ⟨c, hc, -⟩ := hlists.complete id a hid hset
    exact List.not_mem_nil hc
  | some found =>
    refine iff_of_false (by simp) fun hnone => ?_
    rw [hlookup] at hlists hne
    cases found with
    | nil => exact hne rfl
    | cons c rest =>
      obtain ⟨a, ha, hv⟩ := hlists.gives c List.mem_cons_self
      have := hnone a (mem_actions_iff.2 ⟨c.id, ha⟩)
      rw [State.contains_iff.2 ⟨_, hv⟩] at this
      cases this

/-- The set of a catalog, as one pass over it builds it, has the valid actions in catalog order. A variable is found
exactly if one of them sets it, and then with one candidate for each that does, in the order of their positions; there
is no other such list. Without its invalid actions the catalog has the same set. -/
theorem lookup_exact (catalog : List Action) :
    (Filing.ofCatalog catalog).actions = (ofCatalog catalog).actions ∧
    (Filing.ofCatalog catalog).index = (ofCatalog catalog).index ∧
    (ofCatalog catalog).actions.toList = catalog.filter (·.valid) ∧
    (∀ key, (ofCatalog catalog).lookup key = none ↔
      ∀ a ∈ (ofCatalog catalog).actions, a.effects.contains key = false) ∧
    (∀ key candidates, (ofCatalog catalog).lookup key = some candidates ↔
      candidates ≠ [] ∧ (ofCatalog catalog).Lists key candidates) ∧
    ofCatalog (catalog.filter (·.valid)) = ofCatalog catalog := by
  obtain ⟨hactions, hindex⟩ := Filing.ofCatalog_eq catalog
  refine ⟨hactions, hindex, rfl, fun _ => lookup_eq_none_iff, fun _ _ => lookup_eq_some_iff, ?_⟩
  have hfilter : (catalog.filter (·.valid)).filter (·.valid) = catalog.filter (·.valid) := by simp
  unfold ofCatalog
  simp only [hfilter]

/-- What is invalid takes no position, what sets nothing takes one, and of two equal actions each has its own. -/
example :
    let action (name : String) (effects : List (String × Value)) (valid : Bool) : Action :=
      { name, effects := .ofPairs effects, valid, baseCost := 1 }
    let set : ActionSet := .ofCatalog
      [action "spoil" [("wood", .int 0)] false, action "rest" [] true, action "chop" [("wood", .int 2)] true,
        action "trade" [("axe", .bool true), ("wood", .int 1)] true, action "chop" [("wood", .int 2)] true]
    set.lookup "wood" = some [⟨⟨1⟩, .int 2⟩, ⟨⟨2⟩, .int 1⟩, ⟨⟨3⟩, .int 2⟩] ∧
      set.lookup "axe" = some [⟨⟨2⟩, .bool true⟩] ∧ set.lookup "gold" = none := by decide +kernel

end ActionSet

end GoalRegression
