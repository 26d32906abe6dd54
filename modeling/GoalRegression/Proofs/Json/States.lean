/-
States of JSON text are read back, by any library that keeps the laws. A value's text is a scalar, and the item read
from it tells the kind of the value, so a value whose numbers are finite is read back as it was and any other is
refused (`Value.exists_item`). The members of a state come in the order of their names, so they build its entries
again.
-/
import GoalRegression.Json.States
import GoalRegression.Proofs.Json.Compact
import GoalRegression.SortedMap.Lemmas

namespace GoalRegression

section Items

variable {lib : Json.Library} (hdigits : lib.ReadsDigitsBack) (hmarks : lib.MarksNumbers)
  (hstrings : lib.ReversesEscaping) (hitems : lib.KeepsItems)

namespace Value

/-- Whether the value is anything but a number that is not finite. -/
def isFinite : Value → Bool
  | float x => x.isFinite
  | _ => true

theorem writes (v : Value) : lib.Writes (v.write lib) := by
  cases v with
  | bool b => exact .truth b
  | int i => exact .integer i
  | float x => exact .number x
  | text s => exact .string s

/-! ### The kind of an item -/

section Kinds

variable {content : lib.Content}

theorem ofContent_truth {b : Bool} (h : lib.truth? content = some b) : ofContent lib content = some (bool b) := by
  rw [ofContent, h]
  rfl

include hitems

theorem ofContent_integer {i : Int64} (h : lib.integer? content = some i) :
    ofContent lib content = some (int i) := by
  have htruth := hitems.numbers_apart content (Or.inl (Option.isSome_of_eq_some h))
  rw [ofContent, htruth, h]
  rfl

/-- A number that is an integer as well would be taken for one. -/
theorem ofContent_number {x : Binary64} (h : lib.number? content = some x) (hinteger : lib.integer? content = none) :
    ofContent lib content = some (float x) := by
  have htruth := hitems.numbers_apart content (Or.inr (Option.isSome_of_eq_some h))
  rw [ofContent, htruth, hinteger, h]
  rfl

theorem ofContent_string {s : String} (h : lib.string? content = some s) :
    ofContent lib content = some (text s) := by
  obtain ⟨htruth, hinteger, hnumber⟩ := hitems.strings_apart content (Option.isSome_of_eq_some h)
  rw [ofContent, htruth, hinteger, hnumber, h]
  rfl

end Kinds

include hdigits hmarks hstrings hitems

/-- The item of a value's text is the value again. A number that is not finite is written as null, which is no
value. -/
theorem exists_item (v : Value) :
    ∃ content, lib.IsText content (v.write lib) ∧
      ofContent lib content = if v.isFinite then some v else none := by
  cases v with
  | bool b =>
    obtain ⟨content, htext, htruth⟩ := hitems.truth b
    exact ⟨content, htext, ofContent_truth htruth⟩
  | int i =>
    obtain ⟨content, htext, hinteger⟩ := hdigits.integer i
    exact ⟨content, htext, ofContent_integer hitems hinteger⟩
  | float x =>
    cases hx : x.isFinite with
    | true =>
      obtain ⟨content, htext, hnumber⟩ := hdigits.number x hx
      have hinteger := hmarks.no_integer content _ htext (hmarks.mark x hx)
      exact ⟨content, htext, by rw [ofContent_number hitems hnumber hinteger, isFinite, hx, if_pos rfl]⟩
    | false =>
      obtain ⟨content, htext, htruth, hinteger, hnumber, hstring⟩ := hitems.null
      refine ⟨content, by rw [write, hmarks.null x hx]; exact htext, ?_⟩
      rw [ofContent, htruth, hinteger, hnumber, hstring, isFinite, hx]
      rfl
  | text s =>
    obtain ⟨content, htext, hstring⟩ := hstrings s
    exact ⟨content, htext, ofContent_string hitems hstring⟩

/-- A value is read back from its text, unless it is a number that is not finite. -/
theorem toOption_read_write (v : Value) :
    (Value.read lib (v.write lib)).toOption = if v.isFinite then some v else none := by
  obtain ⟨content, htext, hvalue⟩ := v.exists_item hdigits hmarks hstrings hitems
  rw [← hvalue]
  exact htext (ofContent lib)

end Value

namespace State

/-- Whether all numbers of the state are finite. -/
def isFinite (s : State) : Bool := s.toList.all fun e => e.2.isFinite

theorem mapM_entries {found : Value → Option Value} (hfound : ∀ v, found v = if v.isFinite then some v else none)
    (entries : List (String × Value)) :
    (entries.mapM fun e => (found e.2).map (e.1, ·)) =
      if entries.all fun e => e.2.isFinite then some entries else none := by
  induction entries with
  | nil => rfl
  | cons e entries ih =>
    rw [List.mapM_cons, ih, hfound, List.all_cons]
    cases e.2.isFinite
    · rfl
    · cases entries.all fun e => e.2.isFinite <;> rfl

include hdigits hmarks hstrings hitems

theorem toOption_readMap_write (s : State) :
    (lib.readMap (Value.ofContent lib) (s.write lib)).toOption = if s.isFinite then some s.entries else none := by
  choose item htext hvalue using fun v : Value => v.exists_item hdigits hmarks hstrings hitems
  -- a member for each entry, with the item that is read from its text
  let members : List lib.Member := s.toList.map fun e => ⟨e.1, item e.2, e.2.write lib⟩
  have hholds : ∀ m ∈ members, m.Holds := by
    intro m hm
    obtain ⟨e, _, rfl⟩ := List.mem_map.1 hm
    exact ⟨hstrings e.1, e.2.writes, htext e.2⟩
  have hread := hitems.map (Value.ofContent lib) members (List.pairwise_map.2 s.entries.ascending) hholds
  rw [List.map_map, List.mapM_map] at hread
  refine hread.trans ?_
  show (s.toList.mapM fun e => (Value.ofContent lib (item e.2)).map (e.1, ·)).map SortedMap.ofList = _
  rw [mapM_entries hvalue]
  unfold isFinite
  cases s.toList.all fun e => e.2.isFinite with
  | false => rfl
  | true => exact congrArg some (SortedMap.ofList_entries s.entries)

/-- A state whose numbers are finite is read back from its text as it was, every value of the same kind, and any
other state is refused. -/
theorem read_write (s : State) :
    (s.isFinite = true → State.read lib (s.write lib) = .ok s) ∧
      (s.isFinite = false → ∃ error, State.read lib (s.write lib) = .error error) := by
  have hread := s.toOption_readMap_write hdigits hmarks hstrings hitems
  unfold State.read
  constructor
  · intro hs
    rw [hs, if_pos rfl] at hread
    rw [Json.eq_ok_of_toOption hread]
    obtain ⟨entries, _, rfl⟩ := s
    rfl
  · intro hs
    rw [hs, if_neg Bool.false_ne_true] at hread
    obtain ⟨e, he⟩ := Json.exists_eq_error_of_toOption hread
    exact ⟨e, by rw [he]; rfl⟩

end State

end Items

namespace Parcel

/-- Numbers of both kinds with the same value, texts that look like other kinds, and names and texts with escapes. -/
def sealed : State := .ofEntries (.ofList [("count", .int 3), ("weight", .float (.ofInt 3)),
  ("drift", .float (.zero true)), ("code", .text "3"), ("note", .text "true"), ("fragile", .bool true),
  ("\"line\"\n", .text "a\\b\t\x01")])

/-- The parcel after a scale has failed. -/
def unweighed : State := sealed.set "weight" (.float .nan)

/-- The texts of the values tell their kinds apart. The sealed parcel is read back, and the unweighed one is refused. -/
theorem read_write_sealed :
    sealed.toList.map (fun e => e.2.toJson) =
        ["\"a\\\\b\\t\\u0001\"", "\"3\"", "3", "-0.0", "true", "\"true\"", "3.0"] ∧
      State.ofJson sealed.toJson = .ok sealed ∧ ∃ error, State.ofJson unweighed.toJson = .error error := by
  have hread (s : State) := s.read_write Json.compact_readsDigitsBack Json.compact_marksNumbers
    Json.compact_reversesEscaping Json.compact_keepsItems
  exact ⟨by decide +kernel, (hread sealed).1 (by decide +kernel), (hread unweighed).2 (by decide +kernel)⟩

end Parcel

end GoalRegression
