/-
What reading JSON text meets: an item as far as its head tells, and the ways in which a text is refused.
-/
import GoalRegression.Decimal.Layout
import GoalRegression.Error
import GoalRegression.Json.Place
import GoalRegression.Text.Quoted

namespace GoalRegression.Json

inductive Scalar where
  | null
  | bool (b : Bool)
  | integer (n : Int)
  | number (x : Binary64)
  | string (s : String)
deriving DecidableEq

/-- An item by its head: scalars in full, composites by their kind. -/
inductive Item where
  | scalar (s : Scalar)
  | sequence
  | map
deriving DecidableEq

/-- How a scalar is named where it was not expected. -/
def Scalar.description : Scalar → String
  | null => "null"
  | bool b => if b then "boolean `true`" else "boolean `false`"
  | integer n => s!"integer `{n}`"
  | number x => s!"floating point `{Layout.json.render x}`"
  | string s => s!"string {Text.quoted s}"

def Item.description : Item → String
  | scalar s => s.description
  | sequence => "sequence"
  | map => "map"

/-- What was expected in the place of an item. -/
inductive Expectation where
  | bool
  | string
  | state
  | settings
deriving DecidableEq

def Expectation.description : Expectation → String
  | bool => "a boolean"
  | string => "a string"
  | state => "a map"
  | settings => "struct PlannerSettings"

/-- Why a well-formed text does not fit. -/
inductive Misfit where
  /-- The item is no value of a world variable. -/
  | noValue
  | wrongKind (found : Item) (expected : Expectation)
  | repeatedMember (name : String)
  /-- A sequence of this length is too long. -/
  | tooManyElements (length : Nat)
  | planning (error : PlanningError)
deriving DecidableEq

def Misfit.message : Misfit → String
  | noValue => "data did not match any variant of untagged enum Value"
  | wrongKind found expected => s!"invalid type: {found.description}, expected {expected.description}"
  | repeatedMember name => s!"duplicate field `{name}`"
  | tooManyElements length => s!"invalid length {length}, expected fewer elements in array"
  | planning error => error.message

/-- What is said of a misfit, without its place. A message that ends in a place has told it, unless the
line is zero. Where no place is known, all from the last line mark on is taken for one. -/
def Misfit.statement (m : Misfit) (placed : Bool) : String :=
  let (message, told) := Place.split m.message
  if placed || told.any (fun place => place.line != 0) then message else Place.cut message

inductive ReadError where
  /-- The text ends too soon. -/
  | ended
  /-- The text is not JSON, or a number is out of range, or items are nested too deep. -/
  | malformed
  /-- The text is well-formed and does not fit; its place in the text is known or not. -/
  | misfit (reason : Misfit) (placed : Bool)
deriving DecidableEq

def ReadError.place : ReadError → ReadError
  | misfit reason _ => misfit reason true
  | e => e

end GoalRegression.Json
