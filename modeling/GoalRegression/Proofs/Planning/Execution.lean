/-
Running sequences of actions forwards, and what is owed before them. `owedBefore` takes a sequence from its
end: an action that sets something owed is regressed through, any other is passed over. Before a sequence
that achieves the goal this is provided and can be owed (`owedBefore_spec`), and each action either changes
nothing or is one of the steps of the search (`owedBefore_cons`), as long as no variable is required at two
unequal defaults (`DefaultsAgree`), which an absent variable would hold both.
-/
import GoalRegression.Planning.Result
import GoalRegression.Proofs.Regression.Children
import GoalRegression.Proofs.Regression.Universe

namespace GoalRegression

/-! ## Running actions -/

/-- Whether running the actions one after the other never meets one with an unsatisfied precondition. -/
def runnable (start : State) : List Action → Bool
  | [] => true
  | a :: rest => !a.hasUnsatisfiedPreconditions start && runnable (start.apply a.effects) rest

/-- The actions can be run from the start and end where the goal holds. -/
def Achieves (start goal : State) (actions : List Action) : Prop :=
  runnable start actions = true ∧ (PlanningResult.finalState start actions).isSuperstateOf goal = true

instance (start goal : State) (actions : List Action) : Decidable (Achieves start goal actions) :=
  inferInstanceAs (Decidable (_ ∧ _))

variable {start goal s : State} {actions : ActionSet} {a : Action} {rest : List Action}

theorem achieves_nil_iff : Achieves start goal [] ↔ start.isSuperstateOf goal = true :=
  and_iff_right rfl

theorem achieves_cons_iff :
    Achieves start goal (a :: rest) ↔
      a.hasUnsatisfiedPreconditions start = false ∧ Achieves (start.apply a.effects) goal rest := by
  unfold Achieves
  rw [runnable, Bool.and_eq_true_iff, Bool.not_eq_true', and_assoc]
  rfl

/-! ## Defaults -/

/-- No variable is required at two unequal default values. -/
def DefaultsAgree (goal : State) (actions : ActionSet) : Prop :=
  ∀ key v w, Required goal actions key v → Required goal actions key w →
    v.isDefault = true → w.isDefault = true → (v == w) = true

instance (goal : State) (actions : ActionSet) : Decidable (DefaultsAgree goal actions) :=
  decidable_of_iff (∀ e ∈ Requirements.pairs goal actions, ∀ e' ∈ Requirements.pairs goal actions,
      e.1 = e'.1 → e.2.isDefault = true → e'.2.isDefault = true → (e.2 == e'.2) = true) <| by
    simp only [DefaultsAgree, ← Requirements.mem_pairs_iff]
    constructor
    · intro h key v w hv hw
      exact h (key, v) hv (key, w) hw rfl
    · rintro h ⟨key, v⟩ hv ⟨key', w⟩ hw rfl
      exact h key v w hv hw

/-- A default precondition and a default that is owed are the same. -/
theorem DefaultsAgree.content_eq (h : DefaultsAgree goal actions) (ha : a ∈ actions.actions)
    (hs : Owable goal actions s) {key : String} {v w : Value} (hv : a.preconditions.content key = some v)
    (hw : s.content key = some w) (hdv : v.isDefault = true) (hdw : w.isDefault = true) : v = w := by
  obtain ⟨x, hx, rfl⟩ := State.content_eq_some_iff.1 hv
  obtain ⟨y, hy, rfl⟩ := owable_iff_content.1 hs key w hw
  rw [Value.isDefault_canonical] at hdv hdw
  exact Value.beq_iff.1 (h key x y (.inr ⟨a, ha, hx⟩) hy hdv hdw)

/-! ## What is owed before a sequence -/

/-- What has to hold before the actions so that the goal holds after them. -/
def owedBefore (goal : State) : List Action → State
  | [] => goal
  | a :: rest =>
    let owed := owedBefore goal rest
    if a.touches owed then (owed.regress? a).getD owed else owed

theorem owedBefore_of_not_touches (h : a.touches (owedBefore goal rest) = false) :
    owedBefore goal (a :: rest) = owedBefore goal rest := by
  simp [owedBefore, h]

theorem owedBefore_of_regress? {next : State} (htouch : a.touches (owedBefore goal rest) = true)
    (h : (owedBefore goal rest).regress? a = some next) : owedBefore goal (a :: rest) = next := by
  simp [owedBefore, htouch, h]

/-- What is owed before a sequence that achieves the goal can be owed, and the state it starts from has it. -/
theorem owedBefore_spec (hdefaults : DefaultsAgree goal actions) {as : List Action}
    (hmem : ∀ a ∈ as, a ∈ actions.actions) (h : Achieves s goal as) :
    Owable goal actions (owedBefore goal as) ∧ s.isSuperstateOf (owedBefore goal as) = true := by
  induction as generalizing s with
  | nil => exact ⟨owable_goal goal actions, achieves_nil_iff.1 h⟩
  | cons a rest ih =>
    obtain ⟨hpre, hrest⟩ := achieves_cons_iff.1 h
    have ha := hmem a List.mem_cons_self
    obtain ⟨howable, hsuper⟩ := ih (fun b hb => hmem b (List.mem_cons_of_mem _ hb)) hrest
    cases htouch : a.touches (owedBefore goal rest) with
    | false =>
      rw [owedBefore_of_not_touches htouch, ← State.isSuperstateOf_apply_of_not_touches htouch]
      exact ⟨howable, hsuper⟩
    | true =>
      obtain ⟨next, hnext⟩ := State.exists_regress? hpre hsuper fun _ _ _ => hdefaults.content_eq ha howable
      rw [owedBefore_of_regress? htouch hnext]
      exact ⟨howable.regress? ha hnext, (State.isSuperstateOf_regress?_iff hnext s).2 ⟨hpre, hsuper⟩⟩

/-- The first action of a sequence that achieves the goal sets nothing owed and is passed over, or it is a step
from what is owed after it to what is owed before it. For the defaults only the actions of the sequence count. -/
theorem owedBefore_cons {used : ActionSet} (hdefaults : DefaultsAgree goal used)
    (hused : ∀ b ∈ a :: rest, b ∈ used.actions) (ha : a ∈ actions.actions) (h : Achieves s goal (a :: rest))
    (start : State) :
    a.touches (owedBefore goal rest) = false ∧ owedBefore goal (a :: rest) = owedBefore goal rest ∨
      a.touches (owedBefore goal rest) = true ∧ ∃ step ∈ actions.regressions start (owedBefore goal rest),
        step.action = a ∧ step.state = owedBefore goal (a :: rest) ∧
          step.estimate = (owedBefore goal (a :: rest)).distanceTo start true := by
  obtain ⟨hpre, hrest⟩ := achieves_cons_iff.1 h
  obtain ⟨howable, hsuper⟩ := owedBefore_spec hdefaults (fun b hb => hused b (List.mem_cons_of_mem _ hb)) hrest
  cases htouch : a.touches (owedBefore goal rest) with
  | false => exact .inl ⟨rfl, owedBefore_of_not_touches htouch⟩
  | true =>
    obtain ⟨next, hnext⟩ := State.exists_regress? hpre hsuper fun _ _ _ =>
      hdefaults.content_eq (hused a List.mem_cons_self) howable
    refine .inr ⟨rfl, ⟨a, next, next.distanceTo start true⟩, ?_, rfl, ?_, ?_⟩
    · exact ActionSet.mem_regressions_iff.2 ⟨ha, htouch, hnext, rfl⟩
    · exact (owedBefore_of_regress? htouch hnext).symm
    · rw [owedBefore_of_regress? htouch hnext]

end GoalRegression
