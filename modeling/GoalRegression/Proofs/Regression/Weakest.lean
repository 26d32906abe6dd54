/-
Regression of an owed state through an action is the weakest precondition of that state: a state provides
the regression exactly when the action may run from it and ends in a state that provides what was owed
(`isSuperstateOf_regress?_iff`). It fails only where no state can do so, short of two unequal defaults
required of one variable (`exists_regress?`). Equal owed states regress to equal ones, also through two actions
that need and set the same (`regress?_of_alike`).
-/
import GoalRegression.Proofs.State.Content
import GoalRegression.Regression.Step

namespace GoalRegression

/-- Whether the action sets some owed variable. -/
def Action.touches (a : Action) (owed : State) : Bool := a.effects.toList.any fun e => owed.contains e.1

theorem Action.touches_iff_contains {a : Action} {owed : State} :
    a.touches owed = true ↔ ∃ key, a.effects.contains key = true ∧ owed.contains key = true := by
  unfold Action.touches
  rw [List.any_eq_true]
  constructor
  · rintro ⟨⟨key, v⟩, hmem, howed⟩
    exact ⟨key, State.contains_iff.2 ⟨v, State.mem_toList_iff.1 hmem⟩, howed⟩
  · rintro ⟨key, hset, howed⟩
    obtain ⟨v, hv⟩ := State.contains_iff.1 hset
    exact ⟨(key, v), State.mem_toList_iff.2 hv, howed⟩

theorem Action.touches_iff {a : Action} {owed : State} :
    a.touches owed = true ↔ ∃ key v w, a.effects.content key = some v ∧ owed.content key = some w := by
  simp only [touches_iff_contains, State.contains_eq_isSome_content, Option.isSome_iff_exists, exists_and_left,
    exists_and_right]

/-- The actions need equal states and set equal states. Their names and costs may differ. -/
structure Action.Alike (a b : Action) : Prop where
  preconditions : (a.preconditions == b.preconditions) = true
  effects : (a.effects == b.effects) = true

instance (a b : Action) : Decidable (a.Alike b) :=
  decidable_of_iff ((a.preconditions == b.preconditions) = true ∧ (a.effects == b.effects) = true)
    ⟨fun h => ⟨h.1, h.2⟩, fun h => ⟨h.preconditions, h.effects⟩⟩

theorem Action.Alike.refl (a : Action) : a.Alike a := ⟨BEq.rfl, BEq.rfl⟩

/-- Actions that need and set the same set some variable of equal owed states alike. -/
theorem Action.Alike.touches_eq {a b : Action} {owed owed' : State} (hab : a.Alike b)
    (heq : (owed == owed') = true) : a.touches owed = b.touches owed' := by
  rw [Bool.eq_iff_iff, touches_iff, touches_iff, State.beq_iff_content.1 heq, State.beq_iff_content.1 hab.effects]

namespace State

variable {owed next : State} {a : Action}

theorem regress?_eq_some_iff :
    owed.regress? a = some next ↔ a.effects.clashesWith owed = false ∧
      a.preconditions.clashesWith (owed.without a.effects) = false ∧
      (owed.without a.effects).apply a.preconditions = next := by
  unfold regress?
  cases a.effects.clashesWith owed <;> cases a.preconditions.clashesWith (owed.without a.effects) <;> simp

/-- After a regression the preconditions are owed, and of what was owed before all that is not set. -/
theorem content_of_regress? (h : owed.regress? a = some next) (key : String) :
    next.content key = (a.preconditions.content key).or
      (if (a.effects.content key).isSome then none else owed.content key) := by
  obtain ⟨-, -, rfl⟩ := regress?_eq_some_iff.1 h
  rw [content_apply, content_without]

/-- What effects set agrees with what is owed. -/
theorem effects_agree_of_regress? (h : owed.regress? a = some next) {key : String} {v w : Value}
    (hv : a.effects.content key = some v) (hw : owed.content key = some w) : v = w :=
  clashesWith_eq_false_iff.1 (regress?_eq_some_iff.1 h).1 key v w hv hw

/-- What is still owed and not set agrees with the preconditions. -/
theorem preconditions_agree_of_regress? (h : owed.regress? a = some next) {key : String} {v w : Value}
    (hv : a.preconditions.content key = some v) (he : a.effects.content key = none)
    (hw : owed.content key = some w) : v = w := by
  refine clashesWith_eq_false_iff.1 (regress?_eq_some_iff.1 h).2.1 key v w hv ?_
  rw [content_without, he]
  exact hw

/-- A state provides the regression exactly when the action may run from it and its effects turn it into
one that provides what was owed. -/
theorem isSuperstateOf_regress?_iff (h : owed.regress? a = some next) (s : State) :
    s.isSuperstateOf next = true ↔
      a.hasUnsatisfiedPreconditions s = false ∧ (s.apply a.effects).isSuperstateOf owed = true := by
  rw [Action.hasUnsatisfiedPreconditions_eq_false_iff]
  simp only [isSuperstateOf_iff, content_apply, content_of_regress? h]
  constructor
  · intro hs
    refine ⟨fun key v hv => hs key v (by rw [hv]; rfl), fun key w hw => ?_⟩
    -- what the effects set is provided by them, anything else by the state before
    cases he : a.effects.content key with
    | some v =>
      rw [effects_agree_of_regress? h he hw]
      exact .inl rfl
    | none =>
      rw [Option.none_or]
      refine hs key w ?_
      rw [he, if_neg (by decide), hw]
      cases hp : a.preconditions.content key with
      | none => rfl
      | some v => rw [preconditions_agree_of_regress? h hp he hw]; rfl
  · rintro ⟨hpre, hpost⟩ key v hv
    cases hp : a.preconditions.content key with
    | some u =>
      rw [hp, Option.some_or] at hv
      cases hv
      exact hpre key v hp
    | none =>
      rw [hp, Option.none_or] at hv
      cases he : a.effects.content key with
      | some u => rw [he] at hv; cases hv
      | none =>
        rw [he, if_neg (by decide)] at hv
        have := hpost key v hv
        rwa [he, Option.none_or] at this

/-- An action that sets nothing owed leaves it as it was whether the owed state is provided. -/
theorem isSuperstateOf_apply_of_not_touches (h : a.touches owed = false) (s : State) :
    (s.apply a.effects).isSuperstateOf owed = s.isSuperstateOf owed := by
  have hnone : ∀ key w, owed.content key = some w → a.effects.content key = none := by
    intro key w hw
    cases hv : a.effects.content key with
    | none => rfl
    | some v =>
      rw [Action.touches_iff.2 ⟨key, v, w, hv, hw⟩] at h
      cases h
  rw [Bool.eq_iff_iff, isSuperstateOf_iff, isSuperstateOf_iff]
  constructor
  · intro hs key w hw
    have := hs key w hw
    rwa [content_apply, hnone key w hw, Option.none_or] at this
  · intro hs key w hw
    rw [content_apply, hnone key w hw, Option.none_or]
    exact hs key w hw

/-- The regression exists if the action may run from some state and ends where what is owed is provided,
unless the owed state and the preconditions require unequal defaults of one variable. -/
theorem exists_regress? {s : State} (hpre : a.hasUnsatisfiedPreconditions s = false)
    (hpost : (s.apply a.effects).isSuperstateOf owed = true)
    (hdefault : ∀ key v w, a.preconditions.content key = some v → owed.content key = some w →
      v.isDefault = true → w.isDefault = true → v = w) :
    ∃ next, owed.regress? a = some next := by
  rw [Action.hasUnsatisfiedPreconditions_eq_false_iff, isSuperstateOf_iff] at hpre
  rw [isSuperstateOf_iff] at hpost
  refine ⟨_, regress?_eq_some_iff.2 ⟨?_, ?_, rfl⟩⟩
  · rw [clashesWith_eq_false_iff]
    intro key v w hv hw
    have := hpost key w hw
    rw [content_apply, hv, Option.some_or] at this
    rcases this with h | ⟨h, -⟩
    · exact Option.some.inj h
    · cases h
  · rw [clashesWith_eq_false_iff]
    intro key v w hv hw
    rw [content_without] at hw
    cases he : a.effects.content key with
    | some u => rw [he] at hw; cases hw
    | none =>
      rw [he, if_neg (by decide)] at hw
      have hs := hpost key w hw
      rw [content_apply, he, Option.none_or] at hs
      -- the state before the action holds both values, or lacks the variable and both are defaults
      rcases hpre key v hv with hv' | ⟨hnone, hdv⟩
      · rcases hs with hw' | ⟨hnone, -⟩
        · exact Option.some.inj (hv'.symm.trans hw')
        · rw [hnone] at hv'; cases hv'
      · rcases hs with hw' | ⟨-, hdw⟩
        · rw [hnone] at hw'; cases hw'
        · exact hdefault key v w hv hw hdv hdw

/-- Equal owed states regress through actions that need and set the same, to equal states. -/
theorem regress?_of_alike {b : Action} {owed' : State} (hab : a.Alike b) (heq : (owed == owed') = true)
    (h : owed.regress? a = some next) : ∃ next', owed'.regress? b = some next' ∧ (next == next') = true := by
  have hcontent := beq_iff_content.1 heq
  have hpre' := beq_iff_content.1 hab.preconditions
  have heff' := beq_iff_content.1 hab.effects
  have hwithout : (owed.without a.effects).content = (owed'.without b.effects).content := by
    funext key
    rw [content_without, content_without, hcontent, heff']
  obtain ⟨heff, hpre, -⟩ := regress?_eq_some_iff.1 h
  rw [clashesWith_eq_false_iff] at heff hpre
  rw [heff', hcontent] at heff
  rw [hpre', hwithout] at hpre
  have h' := regress?_eq_some_iff.2
    ⟨clashesWith_eq_false_iff.2 heff, clashesWith_eq_false_iff.2 hpre, rfl⟩
  refine ⟨_, h', beq_iff_content.2 (funext fun key => ?_)⟩
  rw [content_of_regress? h, content_of_regress? h', hcontent, hpre', heff']

/-- Equal owed states regress through the same actions, to equal states. -/
theorem regress?_congr {owed' : State} (heq : (owed == owed') = true) (h : owed.regress? a = some next) :
    ∃ next', owed'.regress? a = some next' ∧ (next == next') = true :=
  regress?_of_alike (.refl a) heq h

end State

end GoalRegression
