/-
A catalog prepared for planning: the valid actions in catalog order, and for every variable the actions
that set it. The set carries the proof that its index is that of its actions.
-/
import GoalRegression.Action.Basic

namespace GoalRegression

/-- The position of an action in an `ActionSet`. -/
structure ActionId where
  index : Nat
deriving DecidableEq

/-- An action that gives a variable this value. -/
structure Candidate where
  id : ActionId
  value : Value
deriving DecidableEq

/-- For every variable the actions that set it, in the order of their positions. -/
abbrev ActionIndex := SortedMap String (List Candidate)

namespace ActionIndex

/-- Puts the action at position `id` in front of the candidates of every variable it sets. -/
def addEffects (index : ActionIndex) (id : ActionId) (effects : List (String × Value)) : ActionIndex :=
  effects.foldl (fun index e => index.update e.1 fun others => ⟨id, e.2⟩ :: others.getD []) index

/-- The index of actions whose positions count up from `first`. -/
def ofActions (first : Nat) : List Action → ActionIndex
  | [] => .empty
  | a :: rest => addEffects (ofActions (first + 1) rest) ⟨first⟩ a.effects.toList

end ActionIndex

/-- The valid actions of a catalog with the index of their effects. -/
structure ActionSet where
  actions : Array Action
  index : ActionIndex
  valid : ∀ a ∈ actions, a.valid = true
  index_eq : index = ActionIndex.ofActions 0 actions.toList

namespace ActionSet

def ofCatalog (catalog : List Action) : ActionSet where
  actions := (catalog.filter (·.valid)).toArray
  index := ActionIndex.ofActions 0 (catalog.filter (·.valid))
  valid a h := by simp at h; exact h.2
  index_eq := rfl

def empty : ActionSet := ofCatalog []

instance : Inhabited ActionSet := ⟨empty⟩

/-- The actions that set the variable `name`, or nothing if none does. -/
def lookup (set : ActionSet) (name : String) : Option (List Candidate) := set.index.get? name

def action? (set : ActionSet) (id : ActionId) : Option Action := set.actions[id.index]?

def size (set : ActionSet) : Nat := set.actions.size

def isEmpty (set : ActionSet) : Bool := set.actions.isEmpty

end ActionSet

end GoalRegression
