/-
States: immutable descriptions of a world, a goal, what an action needs or what it sets, as values under
names. A state carries the signature of its entries, so unequal states are told apart without comparing
values. Two states are equal when they hold equal values under the same names.
-/
import GoalRegression.SortedMap.Basic
import GoalRegression.State.Signature

namespace GoalRegression

/-- Values under names, with the signature of the entries. -/
structure State where
  entries : SortedMap String Value
  signature : List Nat
  signature_eq : signature = Signature.ofEntries entries.entries

namespace State

/-! ## Building -/

def ofEntries (entries : SortedMap String Value) : State := ⟨entries, _, rfl⟩

def empty : State := ofEntries .empty

instance : Inhabited State := ⟨empty⟩

def toList (s : State) : List (String × Value) := s.entries.entries

/-- Two states are equal when their entries are, one by one; signatures that differ settle it. -/
instance : BEq State := ⟨fun a b => a.signature == b.signature && a.toList == b.toList⟩

/-! ## Reading -/

def value? (s : State) (key : String) : Option Value := s.entries.get? key

/-- The value under `key`, read as a type; nothing if it is absent or of another kind. -/
def read? (s : State) (key : String) (as : Value → Option α) : Option α := (s.value? key).bind as

/-- The value under `key`, read as a type, or a default if it is absent or of another kind. -/
def readD (s : State) (key : String) (as : Value → Option α) (default : α) : α :=
  (s.read? key as).getD default

def contains (s : State) (key : String) : Bool := s.entries.contains key

def size (s : State) : Nat := s.entries.size

def isEmpty (s : State) : Bool := s.entries.isEmpty

/-! ## Changing -/

/-- The state with `value` under `key`. A value equal to the stored one leaves the stored one. -/
def set (s : State) (key : String) (value : Value) : State :=
  if s.value? key == some value then s else ofEntries (s.entries.insert key value)

def remove (s : State) (key : String) : State :=
  if s.contains key then ofEntries (s.entries.erase key) else s

/-- Entries with one more pair, as `set` has it. -/
def put (entries : SortedMap String Value) (pair : String × Value) : SortedMap String Value :=
  if entries.get? pair.1 == some pair.2 then entries else entries.insert pair.1 pair.2

/-- The state with all pairs set in turn, its signature taken once at the end. -/
def extend (s : State) (pairs : List (String × Value)) : State := ofEntries (pairs.foldl put s.entries)

/-- The state after effects: every pair of `effects` set. -/
def apply (s effects : State) : State := s.extend effects.toList

/-- The state that results from setting the pairs in turn, starting from nothing. -/
def ofPairs (pairs : List (String × Value)) : State := empty.extend pairs

/-- The entries of `s` under the names that `other` does not have. -/
def without (s other : State) : State := ofEntries (s.entries.filter fun key _ => !other.contains key)

/-! ## Comparing -/

/-- Whether the state holds `value` under `key`. An absent key holds the default of every kind. -/
def fulfills (s : State) (key : String) (value : Value) : Bool :=
  match s.value? key with
  | some current => current == value
  | none => value.isDefault

/-- Whether every entry of `s` holds in `other`. -/
def isSubstateOf (s other : State) : Bool := s.toList.all fun e => other.fulfills e.1 e.2

def isSuperstateOf (s other : State) : Bool := other.isSubstateOf s

/-- Whether some name has unequal values in the two states. -/
def clashesWith (s other : State) : Bool :=
  s.toList.any fun e => (other.value? e.1).any fun value => value != e.2

/-- What the entries of `s` lack in `other`: one for a missing name, the distance of the values for a
shared one, added in order of the names. -/
def gapTo (s other : State) : Binary32 :=
  s.toList.foldl (fun sum e =>
    sum + match other.value? e.1 with
      | some value => e.2.distance value
      | none => 1) 0

def sharedWith (s other : State) : Nat := s.toList.countP fun e => other.contains e.1

/-- How far `s` is from `other`: the gap of `s` to it and, unless only that way counts, one for every
name that only `other` has. -/
def distanceTo (s other : State) (oneWay : Bool) : Binary32 :=
  if oneWay then s.gapTo other
  else s.gapTo other + .ofInt (other.size - s.sharedWith other : Nat)

/-! ## Running text -/

def display (s : State) : String :=
  "\x7b" ++ ", ".intercalate (s.toList.map fun e => s!"({e.1}: {e.2.display})") ++ "\x7d"

end State

end GoalRegression
