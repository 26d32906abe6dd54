/-
Planner settings as JSON: a map with any of three members, or a sequence of their values. What is missing
has its default. Other members are passed over; a member that comes twice is refused.
-/
import GoalRegression.Json.Document
import GoalRegression.Json.Skip
import GoalRegression.Json.Text
import GoalRegression.Planning.Settings
import GoalRegression.SortedMap.Basic

namespace GoalRegression

namespace PlannerType

def toJson (type : PlannerType) : String := Json.quoted type.name

def ofItem : Json.Item → Except Json.ReadError PlannerType
  | .scalar (.string s) => (ofText s).mapError fun e => .misfit (.planning e) false
  | item => .error (.misfit (.wrongKind item .string) false)

def ofJson (text : String) : Except Json.ReadError PlannerType := do
  let (item, chars) ← Json.readHead text.toList
  let type ← ofItem item
  Json.expectEnd chars
  return type

end PlannerType

def Json.Item.toBool : Json.Item → Except Json.ReadError Bool
  | .scalar (.bool b) => .ok b
  | item => .error (.misfit (.wrongKind item .bool) false)

inductive Setting where
  | plannerType
  | earlyExit
  | createDebugGraph
deriving DecidableEq

namespace Setting

def name : Setting → String
  | plannerType => "plannerType"
  | earlyExit => "earlyExit"
  | createDebugGraph => "createDebugGraph"

/-- All settings, in the order of a sequence. -/
def all : List Setting := [plannerType, earlyExit, createDebugGraph]

def ofName? (name : String) : Option Setting := all.find? fun setting => setting.name == name

end Setting

namespace PlannerSettings

def toJson (s : PlannerSettings) : String :=
  "\x7b" ++ ",".intercalate
    [Json.quoted Setting.plannerType.name ++ ":" ++ s.plannerType.toJson,
     Json.quoted Setting.earlyExit.name ++ ":" ++ Json.truth s.earlyExit,
     Json.quoted Setting.createDebugGraph.name ++ ":" ++ Json.truth s.createDebugGraph] ++ "\x7d"

/-- Settings as far as they have been read. -/
structure Draft where
  settings : PlannerSettings := {}
  given : List Setting := []

namespace Draft

/-- Refuses a setting that has been read. -/
def checkNew (d : Draft) (setting : Setting) : Except Json.ReadError Unit :=
  if d.given.contains setting then .error (.misfit (.repeatedMember setting.name) false) else .ok ()

def put (d : Draft) (setting : Setting) (item : Json.Item) : Except Json.ReadError Draft := do
  let settings ← match setting with
    | .plannerType => do pure { d.settings with plannerType := ← PlannerType.ofItem item }
    | .earlyExit => do pure { d.settings with earlyExit := ← item.toBool }
    | .createDebugGraph => do pure { d.settings with createDebugGraph := ← item.toBool }
  return { settings, given := setting :: d.given }

end Draft

/-! ## Reading text -/

/-- The members that are left, on top of what has been read, and the closing brace, in at most `fuel`
steps. -/
def readMembersWithin : Nat → Bool → Draft → List Char → Except Json.ReadError (Draft × List Char)
  | 0, _, _, _ => .error .ended
  | fuel + 1, first, draft, chars => do
    let (more, chars) ← Json.moreMembers first chars
    if more then
      let (name, chars) ← Json.readString chars
      match Setting.ofName? name with
      | some setting =>
        draft.checkNew setting
        let (item, chars) ← Json.readHead (← Json.expectMark ':' chars)
        readMembersWithin fuel false (← draft.put setting item) chars
      | none =>
        let chars ← Json.skipItem (← Json.expectMark ':' chars)
        readMembersWithin fuel false draft chars
    else return (draft, ← Json.expect ['\x7d'] chars)

/-- The elements of a sequence for the settings that are left, as many as there are, and the closing
bracket. -/
def readElements (first : Bool) : List Setting → Draft → List Char →
    Except Json.ReadError (Draft × List Char)
  | [], draft, chars => do return (draft, ← Json.expectMark ']' chars)
  | setting :: rest, draft, chars => do
    let (more, chars) ← Json.moreElements first chars
    if more then
      let (item, chars) ← Json.readHead chars
      readElements false rest (← draft.put setting item) chars
    else return (draft, ← Json.expectMark ']' chars)

def ofJson (text : String) : Except Json.ReadError PlannerSettings := do
  let (item, chars) ← Json.readHead text.toList
  let result := match item with
    | .map => readMembersWithin (chars.length + 1) true {} chars
    | .sequence => readElements true Setting.all {} chars
    | item => .error (.misfit (.wrongKind item .settings) true)
  let (draft, chars) ← result.mapError Json.ReadError.place
  Json.expectEnd chars
  return draft.settings

/-! ## Documents -/

def ofMembers (members : SortedMap String Json.Document) : Except Json.ReadError PlannerSettings := do
  let draft ← members.entries.foldlM (fun (draft : Draft) e =>
    match Setting.ofName? e.1 with
    | some setting => draft.put setting e.2.head
    | none => pure draft) {}
  return draft.settings

def ofElements (elements : List Json.Document) : Except Json.ReadError PlannerSettings := do
  let draft ← (Setting.all.zip elements).foldlM (fun (draft : Draft) e => draft.put e.1 e.2.head) {}
  if Setting.all.length < elements.length then
    throw (.misfit (.tooManyElements elements.length) false)
  return draft.settings

/-- The settings that a document is. Members are taken in order of their names, of each name the last; a
sequence that is too long is refused after its settings have been read. -/
def ofDocument : Json.Document → Except Json.ReadError PlannerSettings
  | .map members => ofMembers (.ofList members)
  | .sequence elements => ofElements elements
  | .scalar s => .error (.misfit (.wrongKind (.scalar s) .settings) false)

end PlannerSettings

end GoalRegression
