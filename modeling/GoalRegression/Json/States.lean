/-
Values and states as JSON, by any library. A value is written as its scalar alone, so what it is shows only in the
item that is read back: the kinds of values are tried one after the other. A state is the map of its entries.
-/
import GoalRegression.Json.Compact
import GoalRegression.State.Basic

namespace GoalRegression

namespace Value

/-- A value is written without its kind. -/
def write (lib : Json.Library) : Value → String
  | bool b => lib.truth b
  | int i => lib.integer i
  | float x => lib.number x
  | text s => lib.string s

/-- The value that an item is, of the first kind that takes it. -/
def ofContent (lib : Json.Library) (content : lib.Content) : Option Value :=
  (lib.truth? content).map bool <|> (lib.integer? content).map int <|> (lib.number? content).map float <|>
    (lib.string? content).map text

def read (lib : Json.Library) (text : String) : Except lib.Error Value := lib.read (ofContent lib) text

def toJson : Value → String := write Json.compact

def ofJson (text : String) : Except Json.ReadError Value := read Json.compact text

end Value

namespace State

def write (lib : Json.Library) (s : State) : String :=
  lib.map (s.toList.map fun e => (lib.string e.1, e.2.write lib))

def read (lib : Json.Library) (text : String) : Except lib.Error State :=
  (lib.readMap (Value.ofContent lib) text).map ofEntries

def toJson : State → String := write Json.compact

def ofJson (text : String) : Except Json.ReadError State := read Json.compact text

end State

end GoalRegression
