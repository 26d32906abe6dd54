/-
Passing over whole items. An item that is passed over may nest as it likes, and its numbers and code units
are not looked at closely.
-/
import GoalRegression.Json.Scan

namespace GoalRegression.Json

/-- Passes over a number after its sign. An incomplete number counts as malformed here, even at the end
of the text. -/
def skipNumber (chars : List Char) : Except ReadError (List Char) :=
  let parts := do
    let (_, chars) ← readWhole chars
    let (_, chars) ← readFraction chars
    let (_, chars) ← readExponent chars
    return chars
  parts.mapError fun _ => .malformed

/-- Passes over an escape after its backslash. Surrogates need not come in pairs here. -/
def skipEscape : List Char → Except ReadError (List Char)
  | [] => .error .ended
  | 'u' :: chars => do
    let (_, chars) ← readUnit chars
    return chars
  | c :: chars => if (unescape? c).isSome then .ok chars else .error .malformed

/-- Passes over the characters up to the closing quote, and over it. -/
def skipCharsWithin : Nat → List Char → Except ReadError (List Char)
  | 0, _ => .error .ended
  | _ + 1, [] => .error .ended
  | _ + 1, '"' :: chars => .ok chars
  | fuel + 1, '\\' :: chars => do skipCharsWithin fuel (← skipEscape chars)
  | fuel + 1, c :: chars => if c.toNat < 0x20 then .error .malformed else skipCharsWithin fuel chars

def skipString (chars : List Char) : Except ReadError (List Char) :=
  skipCharsWithin (chars.length + 1) chars

mutual

/-- Passes over an item, in at most `fuel` steps. -/
def skipItemWithin : Nat → List Char → Except ReadError (List Char)
  | 0, _ => .error .ended
  | fuel + 1, chars =>
    match skipBlanks chars with
    | [] => .error .ended
    | 'n' :: chars => expect ['u', 'l', 'l'] chars
    | 't' :: chars => expect ['r', 'u', 'e'] chars
    | 'f' :: chars => expect ['a', 'l', 's', 'e'] chars
    | '-' :: chars => skipNumber chars
    | '"' :: chars => skipString chars
    | '[' :: chars => skipElementsWithin fuel true chars
    | '\x7b' :: chars => skipMembersWithin fuel true chars
    | c :: chars => if c.isDigit then skipNumber (c :: chars) else .error .malformed

def skipElementsWithin : Nat → Bool → List Char → Except ReadError (List Char)
  | 0, _, _ => .error .ended
  | fuel + 1, first, chars => do
    let (more, chars) ← moreElements first chars
    if more then skipElementsWithin fuel false (← skipItemWithin fuel chars)
    else expect [']'] chars

def skipMembersWithin : Nat → Bool → List Char → Except ReadError (List Char)
  | 0, _, _ => .error .ended
  | fuel + 1, first, chars => do
    let (more, chars) ← moreMembers first chars
    if more then
      let chars ← expectMark ':' (← skipString chars)
      skipMembersWithin fuel false (← skipItemWithin fuel chars)
    else expect ['\x7d'] chars

end

def skipItem (chars : List Char) : Except ReadError (List Char) := skipItemWithin (stepsFor chars) chars

end GoalRegression.Json
