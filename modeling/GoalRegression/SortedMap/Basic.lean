/-
Finite maps as lists of entries in strictly ascending key order. The order is part of the type, so two
maps with the same entries are the same map, and every walk over a map meets the keys in order.
-/

namespace GoalRegression

/-- A finite map from `κ` to `β`, its entries in strictly ascending key order. -/
structure SortedMap (κ : Type u) (β : Type v) [Ord κ] where
  entries : List (κ × β)
  ascending : entries.Pairwise fun a b => compare a.1 b.1 = .lt

namespace SortedMap

variable {κ : Type u} {β : Type v} [Ord κ]

instance [DecidableEq κ] [DecidableEq β] : DecidableEq (SortedMap κ β) := fun a b =>
  if h : a.entries = b.entries then isTrue (by cases a; cases b; simp_all)
  else isFalse (fun e => h (e ▸ rfl))

protected def empty : SortedMap κ β := ⟨[], .nil⟩

instance : Inhabited (SortedMap κ β) := ⟨.empty⟩

def size (m : SortedMap κ β) : Nat := m.entries.length

def isEmpty (m : SortedMap κ β) : Bool := m.entries.isEmpty

def keys (m : SortedMap κ β) : List κ := m.entries.map (·.1)

/-! ## Looking up -/

/-- The value under a key in a list of entries, the first that has the key. -/
def lookup (k : κ) : List (κ × β) → Option β
  | [] => none
  | e :: rest => if compare k e.1 = .eq then some e.2 else lookup k rest

def get? (m : SortedMap κ β) (k : κ) : Option β := lookup k m.entries

def contains (m : SortedMap κ β) (k : κ) : Bool := (m.get? k).isSome

/-! ## Changing -/

/-- Puts an entry at its place in an ascending list, in the stead of one with the same key. -/
def insertEntry (k : κ) (v : β) : List (κ × β) → List (κ × β)
  | [] => [(k, v)]
  | e :: rest =>
    match compare k e.1 with
    | .lt => (k, v) :: e :: rest
    | .eq => (k, v) :: rest
    | .gt => e :: insertEntry k v rest

theorem mem_insertEntry {k : κ} {v : β} {a : κ × β} {entries : List (κ × β)}
    (h : a ∈ insertEntry k v entries) : a = (k, v) ∨ a ∈ entries := by
  induction entries with
  | nil => exact .inl (List.mem_singleton.1 h)
  | cons e rest ih =>
    unfold insertEntry at h
    split at h
    · exact List.mem_cons.1 h
    · exact (List.mem_cons.1 h).imp_right (List.mem_cons_of_mem _)
    · rcases List.mem_cons.1 h with rfl | h
      · exact .inr List.mem_cons_self
      · exact (ih h).imp_right (List.mem_cons_of_mem _)

variable [Std.TransOrd κ]

theorem ascending_insertEntry (k : κ) (v : β) {entries : List (κ × β)}
    (h : entries.Pairwise fun a b => compare a.1 b.1 = .lt) :
    (insertEntry k v entries).Pairwise fun a b => compare a.1 b.1 = .lt := by
  induction entries with
  | nil => exact List.pairwise_singleton ..
  | cons e rest ih =>
    obtain ⟨hhead, hrest⟩ := List.pairwise_cons.1 h
    unfold insertEntry
    split
    · next hlt =>
      refine List.pairwise_cons.2 ⟨fun a ha => ?_, h⟩
      rcases List.mem_cons.1 ha with rfl | ha
      · exact hlt
      · exact Std.TransCmp.lt_trans hlt (hhead a ha)
    · next heq =>
      exact List.pairwise_cons.2 ⟨fun a ha => Std.TransCmp.lt_of_eq_of_lt heq (hhead a ha), hrest⟩
    · next hgt =>
      refine List.pairwise_cons.2 ⟨fun a ha => ?_, ih hrest⟩
      rcases mem_insertEntry ha with rfl | ha
      · exact Std.OrientedCmp.lt_of_gt hgt
      · exact hhead a ha

def insert (m : SortedMap κ β) (k : κ) (v : β) : SortedMap κ β :=
  ⟨insertEntry k v m.entries, ascending_insertEntry k v m.ascending⟩

/-- The map of the entries of a list, of each key the last. -/
def ofList (entries : List (κ × β)) : SortedMap κ β := entries.foldl (fun m e => m.insert e.1 e.2) .empty

/-- The map with the value under `k` made from the one that was there. -/
def update (m : SortedMap κ β) (k : κ) (change : Option β → β) : SortedMap κ β :=
  m.insert k (change (m.get? k))

omit [Std.TransOrd κ]

def filter (m : SortedMap κ β) (keep : κ → β → Bool) : SortedMap κ β :=
  ⟨m.entries.filter fun e => keep e.1 e.2, m.ascending.filter _⟩

def erase (m : SortedMap κ β) (k : κ) : SortedMap κ β :=
  m.filter fun key _ => compare k key != .eq

def eraseFirst (m : SortedMap κ β) : SortedMap κ β := ⟨m.entries.tail, m.ascending.tail⟩

end SortedMap

end GoalRegression
