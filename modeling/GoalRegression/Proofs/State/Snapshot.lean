/-
States as they are kept. A snapshot shares the place of its entries with the snapshots it was copied from, and holds
the digest of the entries that was taken when they were put there; a change that changes nothing hands out the snapshot
it was asked to change. Two snapshots are compared by digest, then by place, and by their entries only if need be.
However snapshots are made, they hold what the operations on states give, their digest is that of what they hold, and
snapshots of one place hold the same (`Sound`). So neither the digest nor the place changes the verdict: snapshots are
the same exactly if they have the same names with equal values, and then they have one digest
(`sameAs_iff_sameContents`).
-/
import GoalRegression.Proofs.State.Distance
import GoalRegression.Proofs.State.Update

namespace GoalRegression

/-! ## The same contents -/

/-- Values that count as one: of one kind and the same, not-a-numbers included, or two zeros. -/
inductive Value.Equal : Value → Value → Prop
  | bool (b : Bool) : Equal (.bool b) (.bool b)
  | int (i : Int64) : Equal (.int i) (.int i)
  | text (s : String) : Equal (.text s) (.text s)
  | float (x : Binary64) : Equal (.float x) (.float x)
  | zero (s t : Bool) : Equal (.float (.zero s)) (.float (.zero t))

theorem Value.beq_iff_equal {a b : Value} : (a == b) = true ↔ a.Equal b := by
  rw [beq_iff]
  constructor
  · intro h
    cases a <;> cases b <;> simp only [canonical, reduceCtorEq, bool.injEq, int.injEq, float.injEq, text.injEq] at h
    · exact h ▸ .bool _
    · exact h ▸ .int _
    · rcases Binary.eq_or_isZero_of_unsignedZero_eq h with rfl | ⟨hx, hy⟩
      · exact .float _
      · obtain ⟨s, rfl⟩ := Binary.isZero_iff.1 hx
        obtain ⟨t, rfl⟩ := Binary.isZero_iff.1 hy
        exact .zero s t
    · exact h ▸ .text _
  · rintro (_ | _ | _ | _ | _) <;> rfl

/-- The states have the same names, with equal values. -/
structure State.SameContents (a b : State) : Prop where
  names : ∀ key, a.contains key = b.contains key
  values : ∀ key v w, a.value? key = some v → b.value? key = some w → v.Equal w

theorem State.beq_iff_sameContents {a b : State} : (a == b) = true ↔ a.SameContents b := by
  rw [beq_iff_content]
  constructor
  · intro h
    have hagree : a.AgreeWhereShared b :=
      agreeWhereShared_iff.2 fun key v w hv hw => Option.some.inj (hv.symm.trans ((congrFun h key).trans hw))
    refine ⟨fun key => ?_, fun key v w hv hw => Value.beq_iff_equal.1 (hagree key v w hv hw)⟩
    rw [contains_eq_isSome_content, contains_eq_isSome_content, h]
  · rintro ⟨hnames, hvalues⟩
    have hagree := agreeWhereShared_iff.1 fun key v w hv hw => Value.beq_iff_equal.2 (hvalues key v w hv hw)
    funext key
    have hname := hnames key
    rw [contains_eq_isSome_content, contains_eq_isSome_content] at hname
    cases hv : a.content key with
    | none => exact (Option.isNone_iff_eq_none.1 (by simpa [hv] using hname.symm)).symm
    | some v =>
      obtain ⟨w, hw⟩ := Option.isSome_iff_exists.1 (hname.symm.trans (by rw [hv]; rfl))
      rw [hw, hagree key v w hv hw]

/-! ## Snapshots -/

/-- A state as it is kept: where its entries are, and their digest. -/
structure Snapshot where
  place : Nat
  entries : SortedMap String Value
  digest : UInt64
deriving DecidableEq

namespace Snapshot

def state (s : Snapshot) : State := .ofEntries s.entries

/-- Snapshots of one digest are the same if they share a place, or else if their entries are equal one by one. -/
def sameAs (a b : Snapshot) : Bool :=
  a.digest == b.digest && (a.place == b.place || a.entries.entries == b.entries.entries)

section

variable (digest : List Nat → UInt64)

/-- Entries put in a place, with their digest. -/
def keep (place : Nat) (entries : SortedMap String Value) : Snapshot :=
  ⟨place, entries, digest (Signature.ofEntries entries.entries)⟩

/-- The snapshot that all begin with. -/
def empty : Snapshot := keep digest 0 .empty

/-- Sets a value, in a new place if it is not there. -/
def set (s : Snapshot) (place : Nat) (key : String) (value : Value) : Snapshot :=
  if s.entries.get? key == some value then s else keep digest place (s.entries.insert key value)

def remove (s : Snapshot) (place : Nat) (key : String) : Snapshot :=
  if s.entries.contains key then keep digest place (s.entries.erase key) else s

/-- Entries with one pair more, and whether any pair has changed them. -/
def putNoting (entries : SortedMap String Value × Bool) (pair : String × Value) : SortedMap String Value × Bool :=
  if entries.1.get? pair.1 == some pair.2 then entries else (entries.1.insert pair.1 pair.2, true)

/-- Sets all pairs in turn, in a new place if one of them is not there. -/
def extend (s : Snapshot) (place : Nat) (pairs : List (String × Value)) : Snapshot :=
  let result := pairs.foldl putNoting (s.entries, false)
  if result.2 then keep digest place result.1 else s

end

end Snapshot

/-! ## Constructions -/

/-- One way to make a state, from those made before, which are named by their position. A state from outside comes as
the entries that a reader has found, of whatever form. -/
inductive Construction where
  | set (i : Nat) (key : String) (value : Value)
  | remove (i : Nat) (key : String)
  | apply (i j : Nat)
  | extend (i : Nat) (pairs : List (String × Value))
  | collect (pairs : List (String × Value))
  | load (entries : SortedMap String Value)

/-- What the construction makes of states, if these are there. -/
def State.make? (made : List State) : Construction → Option State
  | .set i key value => made[i]?.map (·.set key value)
  | .remove i key => made[i]?.map (·.remove key)
  | .apply i j => made[i]?.bind fun s => made[j]?.map s.apply
  | .extend i pairs => made[i]?.map (·.extend pairs)
  | .collect pairs => some (.ofPairs pairs)
  | .load entries => some (.ofEntries entries)

/-- All states that are made, beginning with the empty one. -/
def State.makeAll (constructions : List Construction) : List State :=
  constructions.foldl (fun made c => made ++ (State.make? made c).toList) [State.empty]

namespace Snapshot

section

variable (digest : List Nat → UInt64)

/-- What the construction makes of snapshots. New entries get a place that was not given away before. -/
def make? (made : List Snapshot) : Construction → Option Snapshot
  | .set i key value => made[i]?.map fun s => s.set digest made.length key value
  | .remove i key => made[i]?.map fun s => s.remove digest made.length key
  | .apply i j => made[i]?.bind fun s => made[j]?.map fun e => s.extend digest made.length e.entries.entries
  | .extend i pairs => made[i]?.map fun s => s.extend digest made.length pairs
  | .collect pairs => some ((empty digest).extend digest made.length pairs)
  | .load entries => some (keep digest made.length entries)

def makeAll (constructions : List Construction) : List Snapshot :=
  constructions.foldl (fun made c => made ++ (make? digest made c).toList) [empty digest]

end

variable {digest : List Nat → UInt64}

/-! ## What snapshots hold -/

theorem state_keep (place : Nat) (entries : SortedMap String Value) :
    (keep digest place entries).state = .ofEntries entries := rfl

theorem state_set (s : Snapshot) (place : Nat) (key : String) (value : Value) :
    (s.set digest place key value).state = s.state.set key value := by
  unfold set State.set
  show _ = if s.entries.get? key == some value then _ else _
  split <;> rfl

theorem state_remove (s : Snapshot) (place : Nat) (key : String) :
    (s.remove digest place key).state = s.state.remove key := by
  unfold remove State.remove
  show _ = if s.entries.contains key then _ else _
  split <;> rfl

/-- Noting changes makes no difference to the entries, and entries without a noted change are as they were. -/
theorem foldl_putNoting (pairs : List (String × Value)) (m : SortedMap String Value) (changed : Bool) :
    (pairs.foldl putNoting (m, changed)).1 = pairs.foldl State.put m ∧
      ((pairs.foldl putNoting (m, changed)).2 = false → changed = false ∧ pairs.foldl State.put m = m) := by
  induction pairs generalizing m changed with
  | nil => exact ⟨rfl, fun h => ⟨h, rfl⟩⟩
  | cons e pairs ih =>
    rw [List.foldl_cons, List.foldl_cons]
    unfold putNoting State.put
    by_cases he : (m.get? e.1 == some e.2) = true
    · rw [if_pos he, if_pos he]
      exact ih m changed
    · rw [if_neg he, if_neg he]
      refine ⟨(ih _ true).1, fun h => ?_⟩
      cases ((ih _ true).2 h).1

theorem state_extend (s : Snapshot) (place : Nat) (pairs : List (String × Value)) :
    (s.extend digest place pairs).state = s.state.extend pairs := by
  obtain ⟨hentries, hunchanged⟩ := foldl_putNoting pairs s.entries false
  unfold extend State.extend
  show (if _ then _ else _ : Snapshot).state = State.ofEntries (pairs.foldl State.put s.entries)
  cases hchanged : (pairs.foldl putNoting (s.entries, false)).2 with
  | true => rw [if_pos rfl, state_keep, hentries]
  | false =>
    rw [if_neg (by decide), (hunchanged hchanged).2]
    rfl

theorem state_make? (made : List Snapshot) (c : Construction) :
    (make? digest made c).map state = State.make? (made.map state) c := by
  cases c with
  | set i key value => simp [make?, State.make?, Function.comp_def, state_set]
  | remove i key => simp [make?, State.make?, Function.comp_def, state_remove]
  | apply i j =>
    simp only [make?, State.make?, List.getElem?_map]
    cases made[i]? with
    | none => rfl
    | some s =>
      cases made[j]? with
      | none => rfl
      | some e => exact congrArg some (state_extend s _ _)
  | extend i pairs => simp [make?, State.make?, Function.comp_def, state_extend]
  | collect pairs => exact congrArg some (state_extend (empty digest) _ _)
  | load entries => rfl

/-- The snapshots hold the states that are made. -/
theorem state_makeAll (digest : List Nat → UInt64) (constructions : List Construction) :
    (makeAll digest constructions).map state = State.makeAll constructions := by
  unfold makeAll State.makeAll
  rw [show [State.empty] = [empty digest].map state from rfl]
  generalize [empty digest] = made
  induction constructions generalizing made with
  | nil => rfl
  | cons c constructions ih =>
    rw [List.foldl_cons, List.foldl_cons, ih, List.map_append, ← state_make?, Option.toList_map]

/-! ## Digests and places -/

theorem set_cases (s : Snapshot) (place : Nat) (key : String) (value : Value) :
    s.set digest place key value = s ∨ ∃ entries, s.set digest place key value = keep digest place entries := by
  unfold set
  split
  · exact .inl rfl
  · exact .inr ⟨_, rfl⟩

theorem remove_cases (s : Snapshot) (place : Nat) (key : String) :
    s.remove digest place key = s ∨ ∃ entries, s.remove digest place key = keep digest place entries := by
  unfold remove
  split
  · exact .inr ⟨_, rfl⟩
  · exact .inl rfl

theorem extend_cases (s : Snapshot) (place : Nat) (pairs : List (String × Value)) :
    s.extend digest place pairs = s ∨ ∃ entries, s.extend digest place pairs = keep digest place entries := by
  unfold extend
  dsimp only
  split
  · exact .inr ⟨_, rfl⟩
  · exact .inl rfl

/-- The digest of a snapshot is that of its entries, and snapshots of one place have the same entries. All places are
given away already. -/
structure Sound (digest : List Nat → UInt64) (made : List Snapshot) : Prop where
  empty_mem : empty digest ∈ made
  digest_eq : ∀ s ∈ made, s.digest = digest (Signature.ofEntries s.entries.entries)
  place_lt : ∀ s ∈ made, s.place < made.length
  entries_eq : ∀ s ∈ made, ∀ t ∈ made, s.place = t.place → s.entries = t.entries

theorem sound_empty : Sound digest [empty digest] := by
  refine ⟨List.mem_singleton_self _, ?_, ?_, ?_⟩
  · intro s hs
    obtain rfl := List.mem_singleton.1 hs
    rfl
  · intro s hs
    obtain rfl := List.mem_singleton.1 hs
    exact Nat.zero_lt_one
  · intro s hs t ht _
    obtain rfl := List.mem_singleton.1 hs
    obtain rfl := List.mem_singleton.1 ht
    rfl

variable {made : List Snapshot} {s a b : Snapshot}

/-- A construction hands out a snapshot that was there, or entries in a new place. -/
theorem make?_cases (h : Sound digest made) {c : Construction} (hmake : make? digest made c = some s) :
    s ∈ made ∨ ∃ entries, s = keep digest made.length entries := by
  have hshared : ∀ {t : Snapshot}, t ∈ made → (s = t ∨ ∃ entries, s = keep digest made.length entries) →
      s ∈ made ∨ ∃ entries, s = keep digest made.length entries := by
    rintro t ht (rfl | hkeep)
    · exact .inl ht
    · exact .inr hkeep
  cases c with
  | set i key value =>
    obtain ⟨t, ht, rfl⟩ := Option.map_eq_some_iff.1 hmake
    exact hshared (List.mem_of_getElem? ht) (set_cases ..)
  | remove i key =>
    obtain ⟨t, ht, rfl⟩ := Option.map_eq_some_iff.1 hmake
    exact hshared (List.mem_of_getElem? ht) (remove_cases ..)
  | apply i j =>
    obtain ⟨t, ht, hmake⟩ := Option.bind_eq_some_iff.1 hmake
    obtain ⟨e, -, rfl⟩ := Option.map_eq_some_iff.1 hmake
    exact hshared (List.mem_of_getElem? ht) (extend_cases ..)
  | extend i pairs =>
    obtain ⟨t, ht, rfl⟩ := Option.map_eq_some_iff.1 hmake
    exact hshared (List.mem_of_getElem? ht) (extend_cases ..)
  | collect pairs =>
    obtain rfl := Option.some.inj hmake
    exact hshared h.empty_mem (extend_cases ..)
  | load entries => exact .inr ⟨entries, (Option.some.inj hmake).symm⟩

theorem Sound.copy (h : Sound digest made) (hs : s ∈ made) : Sound digest (made ++ [s]) := by
  have hmem : ∀ t ∈ made ++ [s], t ∈ made := by
    intro t ht
    rcases List.mem_append.1 ht with ht | ht
    · exact ht
    · exact List.mem_singleton.1 ht ▸ hs
  refine ⟨List.mem_append_left _ h.empty_mem, fun t ht => h.digest_eq t (hmem t ht), fun t ht => ?_,
    fun t ht u hu => h.entries_eq t (hmem t ht) u (hmem u hu)⟩
  rw [List.length_append]
  exact Nat.lt_add_right 1 (h.place_lt t (hmem t ht))

theorem Sound.keep (h : Sound digest made) (entries : SortedMap String Value) :
    Sound digest (made ++ [keep digest made.length entries]) := by
  -- the new place is none of those given away
  have hplace : ∀ t ∈ made, t.place ≠ made.length := fun t ht => Nat.ne_of_lt (h.place_lt t ht)
  refine ⟨List.mem_append_left _ h.empty_mem, ?_, ?_, ?_⟩
  · intro t ht
    rcases List.mem_append.1 ht with ht | ht
    · exact h.digest_eq t ht
    · obtain rfl := List.mem_singleton.1 ht
      rfl
  · intro t ht
    rw [List.length_append, List.length_singleton]
    rcases List.mem_append.1 ht with ht | ht
    · exact Nat.lt_succ_of_lt (h.place_lt t ht)
    · obtain rfl := List.mem_singleton.1 ht
      exact Nat.lt_succ_self _
  · intro t ht u hu heq
    rcases List.mem_append.1 ht with ht | ht <;> rcases List.mem_append.1 hu with hu | hu
    · exact h.entries_eq t ht u hu heq
    · obtain rfl := List.mem_singleton.1 hu
      exact absurd heq (hplace t ht)
    · obtain rfl := List.mem_singleton.1 ht
      exact absurd heq.symm (hplace u hu)
    · obtain rfl := List.mem_singleton.1 ht
      obtain rfl := List.mem_singleton.1 hu
      rfl

theorem Sound.make (h : Sound digest made) (c : Construction) :
    Sound digest (made ++ (make? digest made c).toList) := by
  cases hmake : make? digest made c with
  | none => simpa using h
  | some s =>
    rcases make?_cases h hmake with hs | ⟨entries, rfl⟩
    · exact h.copy hs
    · exact h.keep entries

/-- All snapshots that are ever made are sound. -/
theorem sound_makeAll (digest : List Nat → UInt64) (constructions : List Construction) :
    Sound digest (makeAll digest constructions) := by
  unfold makeAll
  have hbase : Sound digest [empty digest] := sound_empty
  generalize [empty digest] = made at hbase ⊢
  induction constructions generalizing made with
  | nil => exact hbase
  | cons c constructions ih => exact ih _ (hbase.make c)

/-! ## The verdict -/

/-- Neither the digest nor the place changes the verdict on the entries. -/
theorem Sound.sameAs_eq (h : Sound digest made) (ha : a ∈ made) (hb : b ∈ made) :
    a.sameAs b = (a.entries.entries == b.entries.entries) := by
  unfold sameAs
  rw [Bool.eq_iff_iff, Bool.and_eq_true_iff, Bool.or_eq_true_iff, beq_iff_eq, beq_iff_eq]
  constructor
  · rintro ⟨-, hplace | hentries⟩
    · rw [h.entries_eq a ha b hb hplace]
      exact BEq.rfl
    · exact hentries
  · intro hentries
    refine ⟨?_, .inr hentries⟩
    rw [h.digest_eq a ha, h.digest_eq b hb, Signature.ofEntries_eq_iff.2 hentries]

theorem beq_state_eq (a b : Snapshot) : (a.state == b.state) = (a.entries.entries == b.entries.entries) := by
  rw [Bool.eq_iff_iff, State.beq_iff_canonicalEntries_toList, State.beq_iff_canonicalEntries]
  rfl

/-- Of any two snapshots, however they were made: they are the same exactly if they have the same names with equal
values, and then they have one digest. The digest of a snapshot is that of what it holds, which is the state that was
made, and the verdict is the one on the entries alone and the one on the states. -/
theorem sameAs_iff_sameContents (digest : List Nat → UInt64) (constructions : List Construction) (a b : Snapshot)
    (ha : a ∈ makeAll digest constructions) (hb : b ∈ makeAll digest constructions) :
    (a.sameAs b = true ↔ a.state.SameContents b.state) ∧
      (a.state.SameContents b.state → a.digest = b.digest) ∧
      a.digest = digest (Signature.ofEntries a.state.toList) ∧
      a.sameAs b = (a.state.toList == b.state.toList) ∧
      a.sameAs b = (a.state == b.state) ∧
      (makeAll digest constructions).map state = State.makeAll constructions := by
  have hsound := sound_makeAll digest constructions
  have hsame : a.sameAs b = (a.entries.entries == b.entries.entries) := hsound.sameAs_eq ha hb
  have hstate : a.sameAs b = (a.state == b.state) := hsame.trans (beq_state_eq a b).symm
  refine ⟨?_, ?_, hsound.digest_eq a ha, hsame, hstate, state_makeAll digest constructions⟩
  · rw [hstate, State.beq_iff_sameContents]
  · intro hcontents
    rw [← State.beq_iff_sameContents, beq_state_eq, ← Signature.ofEntries_eq_iff] at hcontents
    rw [hsound.digest_eq a ha, hsound.digest_eq b hb, hcontents]

end Snapshot

/-! ## A scale at zero -/

namespace Weighing

/-- A digest that mixes the numbers in as they come. -/
def mix (numbers : List Nat) : UInt64 := numbers.foldl (fun sum n => sum * 31 + n.toUInt64) 7

/-- The scale is put at either zero, in several ways. The second one changes nothing. -/
def weighings : List Construction :=
  [.set 0 "scale" (.float (.zero false)), .set 1 "scale" (.float (.zero true)), .set 0 "load" (.int 5),
    .set 3 "scale" (.float (.zero true)), .remove 4 "load", .load (.ofList [("scale", .float (.zero true))])]

def above : Snapshot := .keep mix 1 (State.ofPairs [("scale", .float (.zero false))]).entries

def below : Snapshot := .keep mix 5 (State.ofPairs [("scale", .float (.zero true))]).entries

/-- The two zeros are kept in two places, as they were set, and are the same. -/
theorem sameAs_iff_sameContents_scale :
    (Snapshot.makeAll mix weighings).map (·.place) = [0, 1, 1, 3, 4, 5, 6] ∧ above.entries ≠ below.entries ∧
      above.state.SameContents below.state ∧ above.digest = below.digest ∧ above.sameAs below = true := by
  have habove : above ∈ Snapshot.makeAll mix weighings := by decide +kernel
  have hbelow : below ∈ Snapshot.makeAll mix weighings := by decide +kernel
  have hsame : above.sameAs below = true := by decide +kernel
  obtain ⟨hiff, hdigest, -⟩ := Snapshot.sameAs_iff_sameContents mix weighings above below habove hbelow
  exact ⟨by decide +kernel, by decide +kernel, hiff.1 hsame, hdigest (hiff.1 hsame), hsame⟩

end Weighing

end GoalRegression
