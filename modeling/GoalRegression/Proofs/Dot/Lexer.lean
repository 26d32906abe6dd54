/-
Reading text in the DOT language. A quoted label ends at the first quote that has no backslash in front of it, and is
kept as it stands; `unescape` gives the text that it shows. A piece of text that shows something cannot end the label
that it is put into, nor leave it inside an escape (`run_quoted`), and such pieces may be put together
(`Shows.append`). The lexer is a machine that reads one character after the other, so it reads a text by reading its
parts (`Leads.append`).
-/
import GoalRegression.Search.Dot

namespace GoalRegression.Dot

/-! ## Escapes -/

/-- What a backslash in front of a character stands for. -/
def meaning? : Char → Option Char
  | '\\' => some '\\'
  | '"' => some '"'
  | 'n' => some '\n'
  | _ => none

/-- The text that a quoted label shows. There is none if the label has a quote without a backslash, or a backslash that
stands at the end or in front of anything else. -/
def unescape : List Char → Option (List Char)
  | [] => some []
  | c :: rest =>
    if c = '"' then none
    else if c = '\\' then
      match rest with
      | [] => none
      | d :: rest => (meaning? d).bind fun d => (unescape rest).map (d :: ·)
    else (unescape rest).map (c :: ·)

theorem unescape_of_ne {c : Char} (hquote : c ≠ '"') (hbackslash : c ≠ '\\') (rest : List Char) :
    unescape (c :: rest) = (unescape rest).map (c :: ·) := by
  conv => lhs; unfold unescape
  rw [if_neg hquote, if_neg hbackslash]

theorem unescape_backslash (d : Char) (rest : List Char) :
    unescape ('\\' :: d :: rest) = (meaning? d).bind fun d => (unescape rest).map (d :: ·) := rfl

theorem unescape_append {a b x y : List Char} (ha : unescape a = some x) (hb : unescape b = some y) :
    unescape (a ++ b) = some (x ++ y) := by
  fun_induction unescape a generalizing x with
  | case1 =>
    obtain rfl := Option.some.inj ha
    simpa using hb
  | case2 | case3 => simp at ha
  | case4 _ d rest ih =>
    obtain ⟨e, hd, ha⟩ := Option.bind_eq_some_iff.1 ha
    obtain ⟨x', hrest, rfl⟩ := Option.map_eq_some_iff.1 ha
    simp [unescape_backslash, hd, ih hrest]
  | case5 c rest hquote hbackslash ih =>
    obtain ⟨x', hrest, rfl⟩ := Option.map_eq_some_iff.1 ha
    simp [unescape_of_ne hquote hbackslash, ih hrest]

theorem unescape_escapedChar (c : Char) : unescape (escapedChar c) = some [c] := by
  unfold escapedChar
  split
  · rfl
  · rfl
  · next hbackslash hquote => rw [unescape_of_ne hquote hbackslash]; rfl

theorem unescape_flatMap (text : List Char) : unescape (text.flatMap escapedChar) = some text := by
  induction text with
  | nil => rfl
  | cons c text ih =>
    rw [List.flatMap_cons]
    exact unescape_append (unescape_escapedChar c) ih

/-- A character is replaced everywhere. -/
def substitute (c : Char) (replacement : List Char) (text : List Char) : List Char :=
  text.flatMap fun d => if d = c then replacement else [d]

/-- It is the same to replace the backslashes everywhere and then the quotes. -/
theorem toList_escape_eq_substitute (text : String) :
    (escape text).toList = substitute '"' ['\\', '"'] (substitute '\\' ['\\', '\\'] text.toList) := by
  rw [escape, String.toList_ofList, substitute, substitute, List.flatMap_assoc]
  congr 1
  funext c
  unfold escapedChar
  split
  · rfl
  · rfl
  · next hbackslash hquote => simp [if_neg hbackslash, if_neg hquote]

/-- The backslashes come first: what is put in front of a quote must not be doubled. -/
example :
    let swapped := substitute '\\' ['\\', '\\'] (substitute '"' ['\\', '"'] ['"'])
    swapped = ['\\', '\\', '"'] ∧ unescape swapped = none := by decide

/-- A label shows a text. -/
def Shows (label text : String) : Prop := unescape label.toList = some text.toList

theorem Shows.append {a b x y : String} (ha : Shows a x) (hb : Shows b y) : Shows (a ++ b) (x ++ y) := by
  unfold Shows
  rw [String.toList_append, String.toList_append]
  exact unescape_append ha hb

theorem shows_escape (text : String) : Shows (escape text) text := by
  rw [Shows, escape, String.toList_ofList]
  exact unescape_flatMap _

theorem shows_lineBreak : Shows lineBreak "\n" := rfl

/-- Text without quotes and backslashes. -/
def Plain (chars : List Char) : Prop := ∀ c ∈ chars, c ≠ '"' ∧ c ≠ '\\'

-- goes through the characters of the text, not through all that there are
instance (chars : List Char) : Decidable (Plain chars) :=
  List.decidableBAll (fun c => c ≠ '"' ∧ c ≠ '\\') chars

/-- Such text stands for itself. -/
theorem shows_plain {text : String} (h : Plain text.toList) : Shows text text := by
  unfold Shows
  generalize text.toList = chars at h
  induction chars with
  | nil => rfl
  | cons c chars ih =>
    obtain ⟨⟨hquote, hbackslash⟩, hrest⟩ := List.forall_mem_cons.1 h
    rw [unescape_of_ne hquote hbackslash, ih hrest]
    rfl

/-! ## The lexer -/

inductive Token where
  | word (text : String)
  /-- A quoted label, as it stands between its quotes. -/
  | quoted (label : String)
  | arrow
  | mark (c : Char)
deriving DecidableEq, Repr

/-- Where the lexer is, with what it has read of a word or of a label. -/
inductive Mode where
  | between
  | word (read : List Char)
  | dash
  | quoted (read : List Char)
  /-- In a label, after a backslash. -/
  | escaping (read : List Char)
deriving DecidableEq

def isWordChar (c : Char) : Bool := c.isAlphanum || c == '_'

namespace Mode

/-- Reads a character outside of words and labels. -/
def start (c : Char) : Option (Mode × List Token) :=
  if c.isWhitespace then some (between, [])
  else if isWordChar c then some (word [c], [])
  else if c = '"' then some (quoted [], [])
  else if c = '-' then some (dash, [])
  else if c ∈ ['\x7b', '\x7d', '[', ']', '=', ',', ';'] then some (between, [.mark c])
  else none

/-- Reads a character, and says which tokens it completes. -/
def step (c : Char) : Mode → Option (Mode × List Token)
  | between => start c
  | word read =>
    if isWordChar c then some (word (read ++ [c]), [])
    else (start c).map fun next => (next.1, .word (String.ofList read) :: next.2)
  | dash => if c = '>' then some (between, [.arrow]) else none
  | quoted read =>
    if c = '"' then some (between, [.quoted (String.ofList read)])
    else if c = '\\' then some (escaping read, [])
    else some (quoted (read ++ [c]), [])
  | escaping read => some (quoted (read ++ ['\\', c]), [])

/-- Reads characters, and says which tokens they complete. -/
def run (mode : Mode) : List Char → Option (Mode × List Token)
  | [] => some (mode, [])
  | c :: rest => (mode.step c).bind fun next => (next.1.run rest).map fun last => (last.1, next.2 ++ last.2)

/-- The token at the end of a text, which no label may leave open. -/
def finish : Mode → Option (List Token)
  | between => some []
  | word read => some [.word (String.ofList read)]
  | _ => none

end Mode

/-- The tokens of a text. -/
def lex (text : String) : Option (List Token) :=
  (Mode.between.run text.toList).bind fun last => last.1.finish.map (last.2 ++ ·)

/-! ## Reading by parts -/

/-- From one mode a text leads to another, and completes these tokens on the way. -/
def Leads (mode : Mode) (text : String) (mode' : Mode) (tokens : List Token) : Prop :=
  mode.run text.toList = some (mode', tokens)

instance (mode : Mode) (text : String) (mode' : Mode) (tokens : List Token) :
    Decidable (Leads mode text mode' tokens) :=
  inferInstanceAs (Decidable (_ = _))

theorem run_append {mode mode' : Mode} {a : List Char} {tokens : List Token} (h : mode.run a = some (mode', tokens))
    (b : List Char) :
    mode.run (a ++ b) = (mode'.run b).map fun last => (last.1, tokens ++ last.2) := by
  induction a generalizing mode tokens with
  | nil =>
    obtain ⟨rfl, rfl⟩ : mode = mode' ∧ [] = tokens := by simpa [Mode.run] using h
    simp
  | cons c a ih =>
    obtain ⟨next, hstep, h⟩ := Option.bind_eq_some_iff.1 h
    obtain ⟨last, hrest, hlast⟩ := Option.map_eq_some_iff.1 h
    obtain ⟨rfl, rfl⟩ := Prod.mk.inj hlast
    simp [Mode.run, hstep, ih hrest, Function.comp_def]

variable {mode mode' mode'' : Mode} {a b text label : String} {tokens tokens' : List Token}

theorem Leads.append (ha : Leads mode a mode' tokens) (hb : Leads mode' b mode'' tokens') :
    Leads mode (a ++ b) mode'' (tokens ++ tokens') := by
  rw [Leads, String.toList_append, run_append ha, hb]
  rfl

theorem leads_empty (mode : Mode) : Leads mode "" mode [] := rfl

/-- Lines that complete their tokens are read one after the other. -/
theorem leads_join {α : Type} {line : α → String} {tokens : α → List Token}
    (h : ∀ a, Leads .between (line a) .between (tokens a)) (items : List α) :
    Leads .between (String.join (items.map line)) .between (items.flatMap tokens) := by
  induction items with
  | nil => exact leads_empty _
  | cons a items ih =>
    rw [List.map_cons, String.join_cons, List.flatMap_cons]
    exact (h a).append ih

theorem lex_eq (h : Leads .between text .between tokens) : lex text = some tokens := by
  rw [lex, h]
  simp [Mode.finish]

/-- What ends words ends every word. -/
theorem leads_of_word (h : ∀ read, Leads (.word read) text mode' (.word (String.ofList read) :: tokens))
    (name : String) : Leads (.word name.toList) text mode' (.word name :: tokens) := by
  simpa using h name.toList

/-- What ends labels ends every label. -/
theorem leads_of_quoted (h : ∀ read, Leads (.quoted read) text mode' (.quoted (String.ofList read) :: tokens))
    (label : String) : Leads (.quoted label.toList) text mode' (.quoted label :: tokens) := by
  simpa using h label.toList

/-- A word goes on as long as there are characters of words. -/
theorem leads_word {read : List Char} (h : ∀ c ∈ text.toList, isWordChar c = true) :
    Leads (.word read) text (.word (read ++ text.toList)) [] := by
  unfold Leads
  generalize text.toList = chars at h
  induction chars generalizing read with
  | nil => simp [Mode.run]
  | cons c chars ih =>
    obtain ⟨hc, hrest⟩ := List.forall_mem_cons.1 h
    simp [Mode.run, Mode.step, hc, ih hrest]

/-- A label that shows a text is read as a whole: no quote in it ends it, and it does not end inside an escape. -/
theorem run_quoted {label text read : List Char} (h : unescape label = some text) :
    (Mode.quoted read).run label = some (.quoted (read ++ label), []) := by
  fun_induction unescape label generalizing text read with
  | case1 => simp [Mode.run]
  | case2 | case3 => simp at h
  | case4 _ d rest ih =>
    obtain ⟨e, -, h⟩ := Option.bind_eq_some_iff.1 h
    obtain ⟨text', hrest, -⟩ := Option.map_eq_some_iff.1 h
    simp [Mode.run, Mode.step, ih hrest]
  | case5 c rest hquote hbackslash ih =>
    obtain ⟨text', hrest, -⟩ := Option.map_eq_some_iff.1 h
    simp [Mode.run, Mode.step, hquote, hbackslash, ih hrest]

theorem Shows.leads (h : Shows label text) (read : List Char) :
    Leads (.quoted read) label (.quoted (read ++ label.toList)) [] :=
  run_quoted h

end GoalRegression.Dot
