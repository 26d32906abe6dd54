/-
The shapes of inspection text: lists, maps, fields under a name, and a name around a content.
-/
import GoalRegression.Text.Quoted

namespace GoalRegression.Inspection

/-- Items in square brackets. -/
def list (items : List String) : String := "[" ++ ", ".intercalate items ++ "]"

/-- Keys and values in braces. -/
def map (entries : List (String × String)) : String :=
  "\x7b" ++ ", ".intercalate (entries.map fun e => e.1 ++ ": " ++ e.2) ++ "\x7d"

def fields (name : String) (fields : List (String × String)) : String :=
  name ++ " \x7b " ++ ", ".intercalate (fields.map fun e => e.1 ++ ": " ++ e.2) ++ " \x7d"

def wrap (name content : String) : String := name ++ "(" ++ content ++ ")"

def option : Option String → String
  | some content => wrap "Some" content
  | none => "None"

def bool (b : Bool) : String := if b then "true" else "false"

end GoalRegression.Inspection
