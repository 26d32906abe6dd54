/-
Reading JSON text from the front: blanks, literals, numbers, strings, and the heads of items. Every
reader takes the characters that are left and returns what it read and those it leaves, so the first
thing that is wrong is the one that is reported.
-/
import GoalRegression.Decimal.Read
import GoalRegression.Json.Error

namespace GoalRegression.Json

/-- The four characters that may stand between items. -/
def isBlank (c : Char) : Bool := c == ' ' || c == '\n' || c == '\t' || c == '\r'

def skipBlanks (chars : List Char) : List Char := chars.dropWhile isBlank

def expect : List Char → List Char → Except ReadError (List Char)
  | [], chars => .ok chars
  | _ :: _, [] => .error .ended
  | e :: expected, c :: chars => if c = e then expect expected chars else .error .malformed

/-! ## Numbers -/

/-- Refuses what is left in the middle of a number. -/
def refuseNumber (chars : List Char) : ReadError := if chars.isEmpty then .ended else .malformed

/-- The digits before the point: at least one, and no zero in front of others. -/
def readWhole (chars : List Char) : Except ReadError (List Char × List Char) :=
  match chars.span Char.isDigit with
  | ([], rest) => .error (refuseNumber rest)
  | ('0' :: _ :: _, _) => .error .malformed
  | (digits, rest) => .ok (digits, rest)

/-- The digits after a point, if there is one: then at least one. -/
def readFraction : List Char → Except ReadError (Option (List Char) × List Char)
  | '.' :: chars =>
    match chars.span Char.isDigit with
    | ([], rest) => .error (refuseNumber rest)
    | (digits, rest) => .ok (some digits, rest)
  | chars => .ok (none, chars)

/-- The digits of an exponent, after its sign: at least one. -/
def readExponentDigits (negative : Bool) (chars : List Char) :
    Except ReadError (Option Int × List Char) :=
  match chars.span Char.isDigit with
  | ([], rest) => .error (refuseNumber rest)
  | (digits, rest) =>
    let magnitude : Int := Decimal.digitsValue digits
    .ok (some (if negative then -magnitude else magnitude), rest)

def readExponent : List Char → Except ReadError (Option Int × List Char)
  | c :: chars =>
    if c = 'e' ∨ c = 'E' then
      let (negative, chars) := Decimal.takeSign chars
      readExponentDigits negative chars
    else .ok (none, c :: chars)
  | [] => .ok (none, [])

/-- A whole number: an integer if it fits 64 bits, signed below zero and unsigned from zero on. The
negative zero is no integer. -/
def wholeNumber (negative : Bool) (n : Nat) : Scalar :=
  if negative then
    if 0 < n ∧ n ≤ 9223372036854775808 then .integer (-(n : Int))
    else .number (Decimal.toBinary true ⟨n, 0⟩)
  else if n ≤ 18446744073709551615 then .integer n
  else .number (Decimal.toBinary false ⟨n, 0⟩)

def numberOfParts (negative : Bool) (whole : List Char) (fraction : Option (List Char))
    (exponent : Option Int) : Scalar :=
  match fraction, exponent with
  | none, none => wholeNumber negative (Decimal.digitsValue whole)
  | _, _ =>
    .number (Decimal.toBinary negative (Decimal.ofParts whole (fraction.getD []) (exponent.getD 0)))

def checkRange : Scalar → Except ReadError Scalar
  | .number x => if x.isFinite then .ok (.number x) else .error .malformed
  | s => .ok s

/-- A number after its sign. -/
def readNumber (negative : Bool) (chars : List Char) : Except ReadError (Scalar × List Char) := do
  let (whole, chars) ← readWhole chars
  let (fraction, chars) ← readFraction chars
  let (exponent, chars) ← readExponent chars
  let number ← checkRange (numberOfParts negative whole fraction exponent)
  return (number, chars)

/-! ## Strings -/

def hexDigit? (c : Char) : Option Nat :=
  if c.isDigit then some (c.toNat - '0'.toNat)
  else if 'a' ≤ c ∧ c ≤ 'f' then some (c.toNat - 'a'.toNat + 10)
  else if 'A' ≤ c ∧ c ≤ 'F' then some (c.toNat - 'A'.toNat + 10)
  else none

/-- The value of four hexadecimal digits. The text has ended if fewer than four bytes are left. -/
def readUnit (chars : List Char) : Except ReadError (Nat × List Char) :=
  if (chars.take 4).foldl (fun bytes c => bytes + c.utf8Size) 0 < 4 then .error .ended
  else
    match chars with
    | a :: b :: c :: d :: rest =>
      match hexDigit? a, hexDigit? b, hexDigit? c, hexDigit? d with
      | some a, some b, some c, some d => .ok (((a * 16 + b) * 16 + c) * 16 + d, rest)
      | _, _, _, _ => .error .malformed
    | _ => .error .malformed

/-- The character of two units, the first of which is a leading surrogate. -/
def readPair (lead : Nat) (chars : List Char) : Except ReadError (Char × List Char) := do
  let chars ← expect ['\\', 'u'] chars
  let (trail, chars) ← readUnit chars
  if 0xDC00 ≤ trail ∧ trail ≤ 0xDFFF then
    return (Char.ofNat (0x10000 + (lead - 0xD800) * 0x400 + (trail - 0xDC00)), chars)
  else throw .malformed

/-- The character of an escape by code units, after its `u`. -/
def readCodeEscape (chars : List Char) : Except ReadError (Char × List Char) := do
  let (unit, chars) ← readUnit chars
  if 0xD800 ≤ unit ∧ unit ≤ 0xDBFF then readPair unit chars
  else if 0xDC00 ≤ unit ∧ unit ≤ 0xDFFF then throw .malformed
  else return (Char.ofNat unit, chars)

def unescape? : Char → Option Char
  | '"' => some '"'
  | '\\' => some '\\'
  | '/' => some '/'
  | 'b' => some '\x08'
  | 'f' => some '\x0c'
  | 'n' => some '\n'
  | 'r' => some '\r'
  | 't' => some '\t'
  | _ => none

/-- The character of an escape, after its backslash. -/
def readEscape : List Char → Except ReadError (Char × List Char)
  | [] => .error .ended
  | 'u' :: chars => readCodeEscape chars
  | c :: chars =>
    match unescape? c with
    | some c => .ok (c, chars)
    | none => .error .malformed

/-- The characters up to the closing quote, which is read too, in at most `fuel` steps. -/
def readCharsWithin : Nat → List Char → Except ReadError (List Char × List Char)
  | 0, _ => .error .ended
  | _ + 1, [] => .error .ended
  | _ + 1, '"' :: chars => .ok ([], chars)
  | fuel + 1, '\\' :: chars => do
    let (c, chars) ← readEscape chars
    let (text, chars) ← readCharsWithin fuel chars
    return (c :: text, chars)
  | fuel + 1, c :: chars =>
    if c.toNat < 0x20 then .error .malformed
    else do
      let (text, chars) ← readCharsWithin fuel chars
      return (c :: text, chars)

/-- A string after its opening quote. Every step takes a character. -/
def readString (chars : List Char) : Except ReadError (String × List Char) := do
  let (text, chars) ← readCharsWithin (chars.length + 1) chars
  return (String.ofList text, chars)

/-! ## Heads of items -/

def readScalar : List Char → Except ReadError (Scalar × List Char)
  | [] => .error .ended
  | 'n' :: chars => do return (.null, ← expect ['u', 'l', 'l'] chars)
  | 't' :: chars => do return (.bool true, ← expect ['r', 'u', 'e'] chars)
  | 'f' :: chars => do return (.bool false, ← expect ['a', 'l', 's', 'e'] chars)
  | '-' :: chars => readNumber true chars
  | '"' :: chars => do
    let (text, chars) ← readString chars
    return (.string text, chars)
  | c :: chars => if c.isDigit then readNumber false (c :: chars) else .error .malformed

/-- A scalar in full, or the opening of a composite. -/
def readHead (chars : List Char) : Except ReadError (Item × List Char) :=
  match skipBlanks chars with
  | '[' :: chars => .ok (.sequence, chars)
  | '\x7b' :: chars => .ok (.map, chars)
  | chars => do
    let (s, chars) ← readScalar chars
    return (.scalar s, chars)

/-! ## Between items -/

/-- Whether another element follows in a sequence, `first` if none came before; the closing bracket is
left. -/
def moreElements (first : Bool) (chars : List Char) : Except ReadError (Bool × List Char) :=
  match skipBlanks chars with
  | [] => .error .ended
  | ']' :: chars => .ok (false, ']' :: chars)
  | c :: chars =>
    if first then .ok (true, c :: chars)
    else if c = ',' then
      match skipBlanks chars with
      | [] => .error .ended
      | ']' :: _ => .error .malformed
      | chars => .ok (true, chars)
    else .error .malformed

def openName : List Char → Except ReadError (List Char)
  | [] => .error .ended
  | '"' :: chars => .ok chars
  | _ => .error .malformed

/-- Whether another member follows in a map, `first` if none came before: then the quote that opens its
name is read, otherwise the closing brace is left. -/
def moreMembers (first : Bool) (chars : List Char) : Except ReadError (Bool × List Char) :=
  match skipBlanks chars with
  | [] => .error .ended
  | '\x7d' :: chars => .ok (false, '\x7d' :: chars)
  | c :: chars =>
    if first then do return (true, ← openName (c :: chars))
    else if c = ',' then do return (true, ← openName (skipBlanks chars))
    else .error .malformed

def expectMark (mark : Char) (chars : List Char) : Except ReadError (List Char) :=
  expect [mark] (skipBlanks chars)

def expectEnd (chars : List Char) : Except ReadError Unit :=
  if (skipBlanks chars).isEmpty then .ok () else .error .malformed

/-- As many steps as going through an item can take: a composite takes two for its opening. -/
def stepsFor (chars : List Char) : Nat := 2 * chars.length + 2

end GoalRegression.Json
