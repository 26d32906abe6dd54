/-
The order of the children. They stand by the first owed variable that their action gives its owed value, and
among those of one variable in catalog order (`regressions_eq`). Positions of actions do not come into it, so an
action that gives no owed variable its value does not show.
-/
import GoalRegression.Proofs.Regression.Children

namespace GoalRegression

/-! ## Dealing out a list -/

theorem eraseDups_of_nodup {α : Type u} [BEq α] [LawfulBEq α] {l : List α} (h : l.Nodup) : l.eraseDups = l := by
  induction l with
  | nil => rfl
  | cons a l ih =>
    obtain ⟨ha, hl⟩ := List.nodup_cons.1 h
    have hfilter : l.filter (fun b => !b == a) = l := by
      rw [List.filter_eq_self]
      intro b hb
      rw [Bool.not_eq_true', beq_eq_false_iff_ne]
      rintro rfl
      exact ha hb
    rw [List.eraseDups_cons, hfilter, ih hl]

/-- The elements that match some key: by the first key that they match, then in their own order. -/
def byFirstMatch {ε : Type v} {α : Type u} (isMatch : ε → α → Bool) : List ε → List α → List α
  | [], _ => []
  | e :: rest, l => l.filter (isMatch e) ++ byFirstMatch isMatch rest (l.filter fun a => !isMatch e a)

section ByFirstMatch

variable {ε : Type v} {α : Type u} {β : Type w} {isMatch : ε → α → Bool}

theorem byFirstMatch_map (isMatch : ε → α → Bool) (f : β → α) (keys : List ε) (l : List β) :
    byFirstMatch isMatch keys (l.map f) = (byFirstMatch (fun e b => isMatch e (f b)) keys l).map f := by
  induction keys generalizing l with
  | nil => rfl
  | cons e rest ih =>
    unfold byFirstMatch
    rw [List.filter_map, List.filter_map, ih, List.map_append]
    rfl

theorem mem_of_mem_byFirstMatch {keys : List ε} {l : List α} {a : α} (h : a ∈ byFirstMatch isMatch keys l) :
    a ∈ l := by
  induction keys generalizing l with
  | nil => cases h
  | cons e rest ih =>
    rcases List.mem_append.1 h with h | h
    · exact (List.mem_filter.1 h).1
    · exact (List.mem_filter.1 (ih h)).1

/-- Going through the keys and dropping what came before lists each element under the first key it matches. -/
theorem eraseDups_flatMap_eq_byFirstMatch [BEq β] [LawfulBEq β] {f : α → β} (keys : List ε) {l : List α}
    (hl : (l.map f).Nodup) :
    (keys.flatMap fun e => (l.filter (isMatch e)).map f).eraseDups = (byFirstMatch isMatch keys l).map f := by
  induction keys generalizing l with
  | nil => rfl
  | cons e rest ih =>
    have hsub : ∀ p : α → Bool, ((l.filter p).map f).Nodup := fun p => hl.sublist (List.filter_sublist.map f)
    -- what is listed under `e` is dropped from everything after it
    have hrest : (rest.flatMap fun e' => (l.filter (isMatch e')).map f).removeAll ((l.filter (isMatch e)).map f) =
        rest.flatMap fun e' => ((l.filter fun a => !isMatch e a).filter (isMatch e')).map f := by
      unfold List.removeAll
      rw [List.filter_flatMap]
      refine List.flatMap_congr fun e' _ => ?_
      rw [List.filter_map, List.filter_filter, List.filter_filter]
      refine congrArg (List.map f) (List.filter_congr fun a ha => ?_)
      have hmem : ((l.filter (isMatch e)).map f).elem (f a) = isMatch e a := by
        rw [Bool.eq_iff_iff, List.elem_eq_mem, decide_eq_true_iff, List.mem_map]
        constructor
        · rintro ⟨b, hb, hba⟩
          obtain ⟨hb, hmatch⟩ := List.mem_filter.1 hb
          rwa [List.inj_on_of_nodup_map hl hb ha hba] at hmatch
        · intro hmatch
          exact ⟨a, List.mem_filter.2 ⟨ha, hmatch⟩, rfl⟩
      rw [Function.comp_apply, hmem, Bool.and_comm]
    rw [List.flatMap_cons, List.eraseDups_append, eraseDups_of_nodup (hsub _), hrest, ih (hsub _), byFirstMatch,
      List.map_append]

end ByFirstMatch

/-! ## Children -/

/-- Whether the action gives the variable of an entry a value equal to the one it has there. -/
def Action.gives (e : String × Value) (a : Action) : Bool := (a.effects.value? e.1).any (· == e.2)

/-- The step from an owed state through an action, if the state regresses through it. -/
def Action.step? (a : Action) (start owed : State) : Option Step :=
  (owed.regress? a).map fun next => ⟨a, next, next.distanceTo start true⟩

namespace ActionSet

theorem map_id_candidates (key : String) (v : Value) (first : Nat) (actions : List Action) :
    ((ActionIndex.candidates key first actions).filter fun c => c.value == v).map (·.id) =
      ((actions.zipIdx first).filter fun e => e.1.gives (key, v)).map fun e => ⟨e.2⟩ := by
  unfold ActionIndex.candidates
  induction actions.zipIdx first with
  | nil => rfl
  | cons e rest ih =>
    rw [List.filterMap_cons, List.filter_cons]
    unfold Action.gives at ih ⊢
    cases hv : e.1.effects.value? key with
    | none => simp [ih]
    | some w => by_cases hw : (w == v) = true <;> simp [hw, ih]

theorem discharging_eq (actions : ActionSet) (owed : State) :
    actions.discharging owed =
      (byFirstMatch (fun e x => x.1.gives e) owed.toList actions.actions.toList.zipIdx).map fun x => ⟨x.2⟩ := by
  have hnodup : (actions.actions.toList.zipIdx.map fun x => (⟨x.2⟩ : ActionId)).Nodup := by
    have hinj : Function.Injective ActionId.mk := fun i j h => congrArg ActionId.index h
    have hpositions : (actions.actions.toList.zipIdx.map Prod.snd).Nodup := by
      rw [List.zipIdx_map_snd]
      exact List.nodup_range'
    have := hpositions.map hinj
    rwa [List.map_map] at this
  unfold discharging
  rw [← eraseDups_flatMap_eq_byFirstMatch _ hnodup]
  refine congrArg List.eraseDups (List.flatMap_congr fun e _ => ?_)
  rw [lookup_eq, map_id_candidates]

/-- Actions are dealt out with the positions they have in the set. -/
theorem action?_of_mem_byFirstMatch {actions : ActionSet} {ε : Type v} {isMatch : ε → Action × Nat → Bool}
    {keys : List ε} {a : Action} {i : Nat}
    (h : (a, i) ∈ byFirstMatch isMatch keys actions.actions.toList.zipIdx) : actions.action? ⟨i⟩ = some a := by
  have := List.mk_mem_zipIdx_iff_getElem?.1 (mem_of_mem_byFirstMatch h)
  rwa [Array.getElem?_toList] at this

/-- The children of an owed state are its steps through the actions that give some owed variable its value: by the
first such variable, then in catalog order. -/
theorem regressions_eq (actions : ActionSet) (start owed : State) :
    actions.regressions start owed =
      (byFirstMatch (fun e a => a.gives e) owed.toList actions.actions.toList).filterMap
        (·.step? start owed) := by
  have hactions : actions.actions.toList = actions.actions.toList.zipIdx.map Prod.fst := (List.zipIdx_map_fst ..).symm
  unfold regressions
  rw [discharging_eq, List.filterMap_map, hactions, byFirstMatch_map, List.filterMap_map, ← hactions]
  -- each position is that of the action it was taken from
  refine List.filterMap_congr fun x hx => ?_
  obtain ⟨a, i⟩ := x
  simp only [Function.comp_apply, action?_of_mem_byFirstMatch hx, Option.bind_eq_bind, Option.bind_some, Action.step?]
  cases owed.regress? a <;> rfl

end ActionSet

end GoalRegression
