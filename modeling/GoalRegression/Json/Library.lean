/-
What values and states take from a library that writes and reads JSON, and what they rely on. The library makes a
text out of the texts of its parts. What it finds in a text it hands over as an item of a type that is still open,
which every type takes or refuses.
-/
import GoalRegression.Binary.Basic
import GoalRegression.SortedMap.Basic

namespace GoalRegression.Json

structure Library where
  /-- An item that was read, before its type is known. -/
  Content : Type
  /-- Why a text is refused. -/
  Error : Type
  truth : Bool → String
  integer : Int64 → String
  number : Binary64 → String
  string : String → String
  /-- The text of a map, from the texts of its names and of their items. -/
  map : List (String × String) → String
  truth? : Content → Option Bool
  integer? : Content → Option Int64
  number? : Content → Option Binary64
  string? : Content → Option String
  /-- Reads a text of one item, if the item is accepted. -/
  read {α : Type} (accept : Content → Option α) (text : String) : Except Error α
  /-- Reads a text of a map, if all its items are accepted. -/
  readMap {α : Type} (accept : Content → Option α) (text : String) : Except Error (SortedMap String α)

/-- The point before a fraction, or the letter before an exponent. -/
def isMark (c : Char) : Bool := c == '.' || c == 'e' || c == 'E'

/-- Whether the text of a number has a fraction or an exponent. -/
def hasMark (text : String) : Bool := text.toList.any isMark

namespace Library

variable (lib : Library)

/-- The text is one of the item: whatever is asked of the text, the item answers. -/
def IsText (content : lib.Content) (text : String) : Prop :=
  ∀ {α : Type} (accept : lib.Content → Option α), (lib.read accept text).toOption = accept content

/-- The text is what the library writes for a scalar. -/
inductive Writes : String → Prop
  | truth (b : Bool) : Writes (lib.truth b)
  | integer (i : Int64) : Writes (lib.integer i)
  | number (x : Binary64) : Writes (lib.number x)
  | string (s : String) : Writes (lib.string s)

/-- A member of a map, with the text of its item. -/
structure Member where
  name : String
  content : lib.Content
  text : String

/-- The name can be read from its text, and the item, a scalar, from its own. -/
structure Member.Holds {lib : Library} (m : lib.Member) : Prop where
  name : ∃ content, lib.IsText content (lib.string m.name) ∧ lib.string? content = some m.name
  writes : lib.Writes m.text
  item : lib.IsText m.content m.text

/-! ## What is relied on -/

/-- The digits written for an integer or for a finite number are read back as the same number. -/
structure ReadsDigitsBack : Prop where
  integer : ∀ i, ∃ content, lib.IsText content (lib.integer i) ∧ lib.integer? content = some i
  number : ∀ x, x.isFinite = true → ∃ content, lib.IsText content (lib.number x) ∧ lib.number? content = some x

/-- Finite numbers are written with a fraction or an exponent, with which nothing is an integer, and all others as
null. -/
structure MarksNumbers : Prop where
  mark : ∀ x, x.isFinite = true → hasMark (lib.number x) = true
  no_integer : ∀ content text, lib.IsText content text → hasMark text = true → lib.integer? content = none
  null : ∀ x, x.isFinite = false → lib.number x = "null"

/-- Strings are read back, whatever is escaped in them. -/
def ReversesEscaping : Prop := ∀ s, ∃ content, lib.IsText content (lib.string s) ∧ lib.string? content = some s

/-- What JSON settles whatever the digits and the escapes are: the literals, which kinds of items are apart, and
that a map consists of its members. -/
structure KeepsItems : Prop where
  truth : ∀ b, ∃ content, lib.IsText content (lib.truth b) ∧ lib.truth? content = some b
  null : ∃ content, lib.IsText content "null" ∧ lib.truth? content = none ∧ lib.integer? content = none ∧
    lib.number? content = none ∧ lib.string? content = none
  numbers_apart : ∀ content, (lib.integer? content).isSome = true ∨ (lib.number? content).isSome = true →
    lib.truth? content = none
  strings_apart : ∀ content, (lib.string? content).isSome = true →
    lib.truth? content = none ∧ lib.integer? content = none ∧ lib.number? content = none
  map : ∀ {α : Type} (accept : lib.Content → Option α) (members : List lib.Member),
    members.Pairwise (fun a b => compare a.name b.name = .lt) → (∀ m ∈ members, m.Holds) →
    (lib.readMap accept (lib.map (members.map fun m => (lib.string m.name, m.text)))).toOption =
      (members.mapM fun m => (accept m.content).map (m.name, ·)).map SortedMap.ofList

end Library

end GoalRegression.Json
