/-
Truth values and texts as JSON. In a string the quote, the backslash and the controls are escaped, and all
else stands for itself.
-/

namespace GoalRegression.Json

def truth (b : Bool) : String := if b then "true" else "false"

/-- The last hexadecimal digit of a number. -/
def hexChar (n : Nat) : Char := Nat.digitChar (n % 16)

/-- A character as it stands in a string. -/
def quotedChar (c : Char) : List Char :=
  match c with
  | '"' => ['\\', '"']
  | '\\' => ['\\', '\\']
  | '\n' => ['\\', 'n']
  | '\r' => ['\\', 'r']
  | '\t' => ['\\', 't']
  | '\x08' => ['\\', 'b']
  | '\x0c' => ['\\', 'f']
  | c => if c.toNat < 0x20 then ['\\', 'u', '0', '0', hexChar (c.toNat / 16), hexChar c.toNat] else [c]

def quoted (s : String) : String := String.ofList ('"' :: s.toList.flatMap quotedChar ++ ['"'])

end GoalRegression.Json
