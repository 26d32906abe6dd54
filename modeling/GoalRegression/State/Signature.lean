/-
Signatures: values and entries as sequences of numbers, in which equal values count alike. A sequence tells
where each of its parts ends, so values are equal exactly when their signatures are
(`signature_eq_iff`), and so are entries (`ofEntries_eq_iff`).
-/
import GoalRegression.Value.Basic

namespace GoalRegression

namespace Signature

/-- A text as numbers: its length and its characters. -/
def ofText (s : String) : List Nat := s.toList.length :: s.toList.map Char.toNat

/-- A value as numbers: its kind, then its content. -/
def ofValue : Value → List Nat
  | .bool b => [0, b.toNat]
  | .int i => [1, i.toUInt64.toNat]
  | .float .nan => [2]
  | .float (.infinity negative) => [3, negative.toNat]
  | .float (.finite negative units _) => [4, negative.toNat, units]
  | .text s => 5 :: ofText s

end Signature

/-- The numbers that identify a value up to equality. -/
def Value.signature (v : Value) : List Nat := Signature.ofValue v.canonical

namespace Signature

/-- The numbers of an entry: those of its name, then those that identify its value. -/
def ofEntry (e : String × Value) : List Nat := ofText e.1 ++ e.2.signature

def ofEntries (entries : List (String × Value)) : List Nat := entries.flatMap ofEntry

/-! ## Signatures tell values apart -/

theorem ofText_append_inj {s t : String} {x y : List Nat} (h : ofText s ++ x = ofText t ++ y) :
    s = t ∧ x = y := by
  obtain ⟨hlen, h⟩ := List.cons.inj h
  obtain ⟨hchars, hrest⟩ := List.append_inj h (by rw [List.length_map, List.length_map, hlen])
  exact ⟨String.toList_inj.1 ((List.map_inj_right fun _ _ h => Char.toNat_inj.1 h).1 hchars), hrest⟩

theorem eq_of_toNat_eq {a b : Bool} (h : a.toNat = b.toNat) : a = b := by
  cases a <;> cases b <;> first | rfl | cases h

theorem ofValue_append_inj {a b : Value} {x y : List Nat} (h : ofValue a ++ x = ofValue b ++ y) :
    a = b ∧ x = y := by
  cases a with
  | bool a =>
    cases b with
    | bool b =>
      simp only [ofValue, List.cons_append, List.nil_append, List.cons.injEq] at h
      obtain ⟨-, hb, rfl⟩ := h
      exact ⟨congrArg Value.bool (eq_of_toNat_eq hb), rfl⟩
    | float b => cases b <;> simp [ofValue] at h
    | _ => simp [ofValue] at h
  | int a =>
    cases b with
    | int b =>
      simp only [ofValue, List.cons_append, List.nil_append, List.cons.injEq] at h
      obtain ⟨-, hi, rfl⟩ := h
      exact ⟨congrArg (Value.int ·.toInt64) (UInt64.toNat_inj.1 hi), rfl⟩
    | float b => cases b <;> simp [ofValue] at h
    | _ => simp [ofValue] at h
  | float a =>
    cases b with
    | float b =>
      cases a <;> cases b <;>
        simp only [ofValue, List.cons_append, List.nil_append, List.cons.injEq, true_and, false_and,
          Nat.reduceEqDiff] at h
      · exact ⟨rfl, h⟩
      · obtain ⟨hs, rfl⟩ := h
        rw [eq_of_toNat_eq hs]
        exact ⟨rfl, rfl⟩
      · obtain ⟨hs, rfl, rfl⟩ := h
        rw [eq_of_toNat_eq hs]
        exact ⟨rfl, rfl⟩
    | _ => cases a <;> simp [ofValue] at h
  | text a =>
    cases b with
    | text b =>
      obtain ⟨rfl, rfl⟩ := ofText_append_inj (List.cons.inj h).2
      exact ⟨rfl, rfl⟩
    | float b => cases b <;> simp [ofValue] at h
    | _ => simp [ofValue] at h

theorem ofEntry_append_inj {d e : String × Value} {x y : List Nat} (h : ofEntry d ++ x = ofEntry e ++ y) :
    (d == e) = true ∧ x = y := by
  obtain ⟨k, v⟩ := d
  obtain ⟨l, w⟩ := e
  unfold ofEntry Value.signature at h
  rw [List.append_assoc, List.append_assoc] at h
  obtain ⟨rfl, h⟩ := ofText_append_inj h
  obtain ⟨hv, rfl⟩ := ofValue_append_inj h
  exact ⟨Bool.and_eq_true_iff.2 ⟨BEq.rfl, Value.beq_iff.2 hv⟩, rfl⟩

theorem ofEntry_congr {d e : String × Value} (h : (d == e) = true) : ofEntry d = ofEntry e := by
  obtain ⟨k, v⟩ := d
  obtain ⟨l, w⟩ := e
  obtain ⟨hk, hv⟩ := Bool.and_eq_true_iff.1 h
  cases eq_of_beq hk
  unfold ofEntry Value.signature
  rw [Value.beq_iff.1 hv]

/-- Entries have one signature exactly when they are equal, one by one. -/
theorem ofEntries_eq_iff {xs ys : List (String × Value)} :
    ofEntries xs = ofEntries ys ↔ (xs == ys) = true := by
  induction xs generalizing ys with
  | nil =>
    cases ys with
    | nil => exact iff_of_true rfl rfl
    | cons e ys => exact iff_of_false (fun h => by cases h) (fun h => by cases h)
  | cons d xs ih =>
    cases ys with
    | nil => exact iff_of_false (fun h => by cases h) (fun h => by cases h)
    | cons e ys =>
      rw [List.cons_beq_cons, Bool.and_eq_true_iff, ← ih]
      constructor
      · exact ofEntry_append_inj
      · rintro ⟨hd, hr⟩
        show ofEntry d ++ ofEntries xs = ofEntry e ++ ofEntries ys
        rw [ofEntry_congr hd, hr]

end Signature

/-- Values have one signature exactly when they are equal. -/
theorem Value.signature_eq_iff {a b : Value} : a.signature = b.signature ↔ (a == b) = true := by
  rw [beq_iff]
  constructor
  · intro h
    exact (Signature.ofValue_append_inj (congrArg (· ++ []) h)).1
  · exact congrArg Signature.ofValue

end GoalRegression
