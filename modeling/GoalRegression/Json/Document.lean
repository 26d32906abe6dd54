/-
Documents: whole items with all their parts, and reading them from text. Composites may nest no deeper than
a limit.
-/
import GoalRegression.Json.Scan

namespace GoalRegression.Json

/-- An item with its parts. A map keeps its members in the order of the text, with repeated names. -/
inductive Document where
  | scalar (s : Scalar)
  | sequence (elements : List Document)
  | map (members : List (String × Document))

namespace Document

def head : Document → Item
  | scalar s => .scalar s
  | sequence _ => .sequence
  | map _ => .map

mutual

/-- A document in which composites may nest less than `depth` deep, in at most `fuel` steps. -/
def readWithin : Nat → Nat → List Char → Except ReadError (Document × List Char)
  | 0, _, _ => .error .ended
  | fuel + 1, depth, chars => do
    let (item, chars) ← readHead chars
    match item with
    | .scalar s => return (scalar s, chars)
    | .sequence =>
      if depth ≤ 1 then throw .malformed
      let (elements, chars) ← readElementsWithin fuel (depth - 1) true chars
      return (sequence elements, chars)
    | .map =>
      if depth ≤ 1 then throw .malformed
      let (members, chars) ← readMembersWithin fuel (depth - 1) true chars
      return (map members, chars)

def readElementsWithin : Nat → Nat → Bool → List Char → Except ReadError (List Document × List Char)
  | 0, _, _, _ => .error .ended
  | fuel + 1, depth, first, chars => do
    let (more, chars) ← moreElements first chars
    if more then
      let (element, chars) ← readWithin fuel depth chars
      let (elements, chars) ← readElementsWithin fuel depth false chars
      return (element :: elements, chars)
    else return ([], ← expect [']'] chars)

def readMembersWithin : Nat → Nat → Bool → List Char →
    Except ReadError (List (String × Document) × List Char)
  | 0, _, _, _ => .error .ended
  | fuel + 1, depth, first, chars => do
    let (more, chars) ← moreMembers first chars
    if more then
      let (name, chars) ← readString chars
      let (member, chars) ← readWithin fuel depth (← expectMark ':' chars)
      let (members, chars) ← readMembersWithin fuel depth false chars
      return ((name, member) :: members, chars)
    else return ([], ← expect ['\x7d'] chars)

end

/-- Composites may nest less deep than this in a text. -/
def depthLimit : Nat := 128

/-- A document in which composites may nest less than `depth` deep. -/
def read (depth : Nat) (chars : List Char) : Except ReadError (Document × List Char) :=
  readWithin (stepsFor chars) depth chars

def ofText (text : String) : Except ReadError Document := do
  let (document, chars) ← read depthLimit text.toList
  expectEnd chars
  return document

end Document

end GoalRegression.Json
