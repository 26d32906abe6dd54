/-
JSON without blanks, as a library. Items are kept as documents until their type is known. A map is read member by
member, so what does not fit is reported before what is malformed further on.
-/
import GoalRegression.Binary.Arithmetic
import GoalRegression.Json.Document
import GoalRegression.Json.Library
import GoalRegression.Json.Text

namespace GoalRegression.Json

namespace Document

def truth? : Document → Option Bool
  | scalar (.bool b) => some b
  | _ => none

/-- An integer that fits 64 bits. -/
def integer? : Document → Option Int64
  | scalar (.integer n) => if Int64.minValue.toInt ≤ n ∧ n ≤ Int64.maxValue.toInt then some (.ofInt n) else none
  | _ => none

/-- Integers are numbers too. -/
def number? : Document → Option Binary64
  | scalar (.integer n) => some (Binary.ofInt n)
  | scalar (.number x) => some x
  | _ => none

def string? : Document → Option String
  | scalar (.string s) => some s
  | _ => none

end Document

namespace Compact

def number (x : Binary64) : String := if x.isFinite then Layout.json.render x else "null"

def map (members : List (String × String)) : String :=
  "\x7b" ++ ",".intercalate (members.map fun m => m.1 ++ ":" ++ m.2) ++ "\x7d"

variable {α : Type}

/-- What was accepted of an item, whose place in the text is known or not. -/
def accepted (placed : Bool) : Option α → Except ReadError α
  | some a => .ok a
  | none => .error (.misfit .noValue placed)

def read (accept : Document → Option α) (text : String) : Except ReadError α := do
  let (document, chars) ← Document.read Document.depthLimit text.toList
  let a ← accepted false (accept document)
  expectEnd chars
  return a

/-- The members that are left, on top of those read, and the closing brace, in at most `fuel` steps. The last
member of a name counts. -/
def readMembersWithin (accept : Document → Option α) :
    Nat → Bool → SortedMap String α → List Char → Except ReadError (SortedMap String α × List Char)
  | 0, _, _, _ => .error .ended
  | fuel + 1, first, members, chars => do
    let (more, chars) ← moreMembers first chars
    if more then
      let (name, chars) ← readString chars
      let (document, chars) ← Document.read (Document.depthLimit - 1) (← expectMark ':' chars)
      let a ← accepted true (accept document)
      readMembersWithin accept fuel false (members.insert name a) chars
    else return (members, ← expect ['\x7d'] chars)

def readMap (accept : Document → Option α) (text : String) : Except ReadError (SortedMap String α) := do
  let (item, chars) ← readHead text.toList
  match item with
  | .map =>
    let (members, chars) ← readMembersWithin accept (chars.length + 1) true .empty chars
    expectEnd chars
    return members
  | item => .error (.misfit (.wrongKind item .state) true)

end Compact

def compact : Library where
  Content := Document
  Error := ReadError
  truth := truth
  integer i := toString i.toInt
  number := Compact.number
  string := quoted
  map := Compact.map
  truth? := Document.truth?
  integer? := Document.integer?
  number? := Document.number?
  string? := Document.string?
  read := Compact.read
  readMap := Compact.readMap

end GoalRegression.Json
