/-
Texts in inspection form: in quotes, with every character that would not be seen, or would be read as
something else, written as an escape.
-/
import GoalRegression.Text.Combining
import GoalRegression.Text.Printing

namespace GoalRegression.Text

/-- The escape of a character by its code point in hexadecimal digits. -/
def codePointEscape (c : Char) : List Char :=
  ['\\', 'u', '\x7b'] ++ Nat.toDigits 16 c.toNat ++ ['\x7d']

/-- A character as it stands between quotes. -/
def quotedChar (c : Char) : List Char :=
  match c with
  | '"' => ['\\', '"']
  | '\\' => ['\\', '\\']
  | '\n' => ['\\', 'n']
  | '\r' => ['\\', 'r']
  | '\t' => ['\\', 't']
  | '\x00' => ['\\', '0']
  | c => if isPrinting c && !isCombining c then [c] else codePointEscape c

def quoted (s : String) : String := String.ofList ('"' :: s.toList.flatMap quotedChar ++ ['"'])

end GoalRegression.Text
