import Workbench.Json.Basic
import Workbench.Settings
import Workbench.Text.Quoted

/-!
# Messages to the console

A message reaches the console when it comes from the previewed page, is an object whose `type` is
the tag of the console, has a `level` and, if it has a `message`, a list there. Anything else is
rejected for the first reason that applies: the sender, the tag, a bad level, a bad message, a
missing level.
-/

namespace Workbench.Console

/-- The level of a console call. -/
inductive Level where
  | log
  | warn
  | error
  deriving DecidableEq, Repr

namespace Level

/-- The name of the level in a message. -/
def name : Level → String
  | log => "log"
  | warn => "warn"
  | error => "error"

/-- The level with this name. -/
def ofName? : String → Option Level
  | "log" => some log
  | "warn" => some warn
  | "error" => some error
  | _ => none

theorem ofName?_name (l : Level) : ofName? l.name = some l := by cases l <;> rfl

end Level

/-- An accepted console call. -/
structure Event where
  level : Level
  args : List Json

/-- What is wrong with a message that carries the tag. -/
inductive Defect where
  | unknownLevel (name : String)
  /-- The level is neither a text nor an object. -/
  | levelOfKind (found : Json)
  /-- The level is an object, but not with exactly one field. -/
  | levelFields
  /-- The level is a named level with a value other than null. -/
  | levelValue (found : Json)
  | messageOfKind (found : Json)
  | missingLevel

/-- Why a message is rejected. -/
inductive Rejection where
  | foreign
  | untagged
  | malformed (defect : Defect)

/-- A value as a diagnostic names it. -/
def found : Json → String
  | .null => "null"
  | .bool b => if b then "boolean `true`" else "boolean `false`"
  | .int n => "integer `" ++ toString n ++ "`"
  | .double x => "floating point `" ++ Json.doubleText x ++ "`"
  | .text s => "string " ++ Text.diagnostic s
  | .list _ => "sequence"
  | .object _ => "map"

/-- The text of a defect. -/
def Defect.message : Defect → String
  | unknownLevel name =>
    "unknown variant `" ++ name ++ "`, expected one of `log`, `warn`, `error`"
  | levelOfKind v => "invalid type: " ++ found v ++ ", expected string or map"
  | levelFields => "invalid value: map, expected map with a single key"
  | levelValue v => "invalid type: " ++ found v ++ ", expected unit"
  | messageOfKind v => "invalid type: " ++ found v ++ ", expected a sequence"
  | missingLevel => "missing field `level`"

/-- The text of a rejection for a defect. -/
def malformedText (detail : String) : String := "malformed console message: " ++ detail

/-- The text of a rejection. -/
def Rejection.message : Rejection → String
  | foreign => "message from unknown source"
  | untagged => "not a console message"
  | malformed d => malformedText d.message

/-- The level that a value stands for: the name of a level, alone or as the only field of an object
with the value null. -/
def readLevel : Json → Except Defect Level
  | .text name =>
    match Level.ofName? name with
    | some l => .ok l
    | none => .error (.unknownLevel name)
  | .object [(name, value)] =>
    match Level.ofName? name, value with
    | none, _ => .error (.unknownLevel name)
    | some l, .null => .ok l
    | some _, v => .error (.levelValue v)
  | .object _ => .error .levelFields
  | v => .error (.levelOfKind v)

/-- The arguments that a value stands for. -/
def readArgs : Json → Except Defect (List Json)
  | .list args => .ok args
  | v => .error (.messageOfKind v)

/-- The event in an object with the tag. -/
def readEvent (data : Json) : Except Defect Event := do
  let level? ← match data.field? "level" with
    | some v => (readLevel v).map some
    | none => .ok none
  let args ← match data.field? "message" with
    | some v => readArgs v
    | none => .ok []
  match level? with
  | some level => .ok ⟨level, args⟩
  | none => .error .missingLevel

/-- The value is an object whose type is the tag of the console. -/
def isTagged (data : Json) : Bool :=
  match data.field? "type" with
  | some (.text s) => s == Settings.consoleTag
  | _ => false

/-- Accepts or rejects a message. -/
def accept (fromPage : Bool) (data : Json) : Except Rejection Event :=
  if !fromPage then .error .foreign
  else if !isTagged data then .error .untagged
  else
    match readEvent data with
    | .ok e => .ok e
    | .error d => .error (.malformed d)

/-- A line of the console. -/
structure Line where
  /-- Tells the line from all others, also from those that say the same. -/
  id : Nat
  level : Level
  text : String
  deriving DecidableEq, Repr

/-- The lines say the same. Their ids do not matter. -/
def Line.saysSame (l m : Line) : Bool := l.level = m.level && l.text = m.text

/-- An argument as the console shows it: a text is shown as it is, any other value as JSON. -/
def shown : Json → String
  | .text s => s
  | v => v.pretty 0

/-- The line of an event under an id: its arguments with single spaces between them. -/
def Line.ofEvent (id : Nat) (e : Event) : Line :=
  ⟨id, e.level, " ".intercalate (e.args.map shown)⟩

end Workbench.Console
