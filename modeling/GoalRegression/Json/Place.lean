/-
Places in a text as messages tell them: at the end, as a line and a column.
-/
import GoalRegression.Decimal.Read

namespace GoalRegression.Json

/-- A line and a column of a text. Lines count from one, and line zero is no place. -/
structure Place where
  line : Nat
  column : Nat
deriving DecidableEq

namespace Place

def lineMark : List Char := " at line ".toList

def columnMark : List Char := " column ".toList

/-- What comes before and after the last occurrence of a mark. -/
def splitLast? (mark : List Char) : List Char → Option (List Char × List Char)
  | [] => none
  | c :: rest =>
    match splitLast? mark rest with
    | some (before, after) => some (c :: before, after)
    | none => if mark.isPrefixOf (c :: rest) then some ([], (c :: rest).drop mark.length) else none

def number? (digits : List Char) : Option Nat :=
  if !digits.isEmpty && digits.all Char.isDigit && Decimal.digitsValue digits ≤ 18446744073709551615 then
    some (Decimal.digitsValue digits)
  else none

/-- The place whose telling, after the line mark, is all of the characters. -/
def ofChars? (chars : List Char) : Option Place :=
  let (line, rest) := chars.span Char.isDigit
  if columnMark.isPrefixOf rest then do
    return ⟨← number? line, ← number? (rest.drop columnMark.length)⟩
  else none

/-- A message without the place it ends in, and that place. -/
def split (message : String) : String × Option Place :=
  match splitLast? lineMark message.toList with
  | some (before, after) =>
    match ofChars? after with
    | some place => (String.ofList before, some place)
    | none => (message, none)
  | none => (message, none)

/-- A message up to its last line mark, whatever follows there. -/
def cut (message : String) : String :=
  match splitLast? lineMark message.toList with
  | some (before, _) => String.ofList before
  | none => message

end Place

end GoalRegression.Json
