import Workbench.Browser.Basic
import Workbench.Console.BoundedLog
import Workbench.Console.Event
import Workbench.Project.Starter

/-!
# The workbench as a whole

The state behind the user interface: the project, the console, the page that is previewed, the
notice in the toolbar and the file open in the editor. `Action` lists what can happen to it and
`run` applies a history of actions. Showing a page in a new tab and importing files also speak to
the browser; their functions return what they asked of it.

A history is followed from its end: `run_concat` is one more action. Two actions are not a single
change of the state. Showing a page in a new tab has many outcomes, which the state sees through the
notice alone (`exists_renderInTab_eq`); importing files is a chain of smaller steps
(`importAll_induction`).
-/

namespace Workbench

/-- The state of the workbench. -/
structure Studio where
  project : Project
  console : BoundedLog Console.Line
  /-- The id of the next line of the console. No id is used twice, also when the console is emptied. -/
  nextLine : Nat
  /-- The page in the preview, while it is open. -/
  preview? : Option String
  /-- What went wrong last. -/
  notice? : Option String
  /-- The id of the file in the editor. -/
  active? : Option Nat

namespace Studio

open Console Browser

/-- A workbench with this project and this file in the editor. -/
def ofProject (p : Project) (active? : Option Nat) : Studio :=
  ⟨p, BoundedLog.empty Settings.consoleLimit, 0, none, none, active?⟩

/-- The id of the first file of a project. -/
def firstId? (p : Project) : Option Nat := p.files.head?.map File.id

/-- A new workbench. -/
def start : Studio := ofProject Project.starter (firstId? Project.starter)

/-- A workbench without files. -/
def bare : Studio := ofProject (Project.new default) none

/-! ## Files -/

/-- Adds a file at the end of the project and opens it in the editor. -/
def place (s : Studio) (name : String) (kind : Kind) (content : Content) : Studio :=
  { s with
    project := s.project.add name kind content
    active? := some s.project.nextId }

/-- Adds an empty text file under a name without blanks around it, unless it is blank. -/
def add (s : Studio) (name : String) : Studio :=
  let name := Text.trim name
  if name.isEmpty then s else s.place name (File.recognise name none) (.text "")

/-- Adds a file that was read. -/
def take (s : Studio) (name : String) (content : Content) : Studio :=
  s.place name (File.recognise name content.text?) content

/-- Reads a file and adds it, or reports that it cannot be read. -/
def importOne (s : Studio) (u : Upload) : Studio :=
  match u.read with
  | .ok content => s.take u.name content
  | .error e => { s with notice? := some e.message }

/-- Reads files one after the other and adds them in this order. -/
def importAll (s : Studio) (uploads : List Upload) : Studio × List Call :=
  (uploads.foldl importOne s, uploads.map Upload.call)

/-- Takes a file out; if it was in the editor, the first file takes its place there. -/
def remove (s : Studio) (id : Nat) : Studio :=
  let p := s.project.remove id
  { s with project := p, active? := if s.active? = some id then firstId? p else s.active? }

/-- Gives a file a new text. -/
def edit (s : Studio) (id : Nat) (text : String) : Studio :=
  { s with project := s.project.update id (·.edit text) }

/-- Gives a file a new name without blanks around it, unless it is blank. -/
def rename (s : Studio) (id : Nat) (name : String) : Studio :=
  let name := Text.trim name
  if name.isEmpty then s else { s with project := s.project.update id (·.renameAs name) }

/-- Shows a file in the editor. -/
def activate (s : Studio) (id : Nat) : Studio := { s with active? := some id }

/-- Changes the mode of the project. -/
def setMode (s : Studio) (mode : Mode) : Studio := { s with project := s.project.setMode mode }

/-! ## Preview -/

/-- Composes the project and shows it in the preview. -/
def render (s : Studio) : Studio := { s with notice? := none, preview? := some s.project.page }

/-- Composes the project and shows it in a new tab. -/
def renderInTab (s : Studio) (b : Behaviour) (t : Tabs) : Studio × Tabs :=
  match t.deliver b s.project.page with
  | (t, .ok ()) => ({ s with notice? := none }, t)
  | (t, .error e) => ({ s with notice? := some e.message }, t)

/-- Closes the preview. -/
def hidePreview (s : Studio) : Studio := { s with preview? := none }

/-- Shows or takes away the notice. -/
def setNotice (s : Studio) (notice? : Option String) : Studio := { s with notice? := notice? }

/-! ## Console -/

/-- Adds the line of an event to the console. -/
def report (s : Studio) (e : Event) : Studio :=
  { s with
    console := s.console.push (Line.ofEvent s.nextLine e)
    nextLine := s.nextLine + 1 }

/-- Takes a message; one that is rejected changes nothing. -/
def receive (s : Studio) (fromPage : Bool) (data : Json) : Studio :=
  match accept fromPage data with
  | .ok e => s.report e
  | .error _ => s

/-- Empties the console. -/
def clearConsole (s : Studio) : Studio := { s with console := s.console.clear }

/-! ## Histories -/

/-- What can happen to the workbench. -/
inductive Action where
  | add (name : String)
  | take (name : String) (content : Content)
  | importAll (uploads : List Upload)
  | remove (id : Nat)
  | edit (id : Nat) (text : String)
  | rename (id : Nat) (name : String)
  | activate (id : Nat)
  | setMode (mode : Mode)
  | render
  | renderInTab (behaviour : Behaviour)
  | hidePreview
  | setNotice (notice? : Option String)
  | receive (fromPage : Bool) (data : Json)
  | clearConsole

/-- What an action makes of the workbench and of its tabs. -/
def act (s : Studio × Tabs) : Action → Studio × Tabs
  | .add name => (s.1.add name, s.2)
  | .take name content => (s.1.take name content, s.2)
  | .importAll uploads => ((s.1.importAll uploads).1, s.2)
  | .remove id => (s.1.remove id, s.2)
  | .edit id text => (s.1.edit id text, s.2)
  | .rename id name => (s.1.rename id name, s.2)
  | .activate id => (s.1.activate id, s.2)
  | .setMode mode => (s.1.setMode mode, s.2)
  | .render => (s.1.render, s.2)
  | .renderInTab b => s.1.renderInTab b s.2
  | .hidePreview => (s.1.hidePreview, s.2)
  | .setNotice notice? => (s.1.setNotice notice?, s.2)
  | .receive fromPage data => (s.1.receive fromPage data, s.2)
  | .clearConsole => (s.1.clearConsole, s.2)

/-- Applies a history of actions. -/
def run (s : Studio) (history : List Action) : Studio × Tabs :=
  history.foldl act (s, Tabs.start)

variable {s : Studio}

theorem run_concat (s : Studio) (history : List Action) (a : Action) :
    s.run (history ++ [a]) = act (s.run history) a := by
  rw [run, List.foldl_append]
  rfl

theorem exists_renderInTab_eq (s : Studio) (b : Behaviour) (t : Tabs) :
    ∃ notice?, (s.renderInTab b t).1 = s.setNotice notice? := by
  unfold renderInTab
  split
  · exact ⟨none, rfl⟩
  · exact ⟨_, rfl⟩

/-- What each file that was read and each notice keep, importing files keeps. -/
theorem importAll_induction {P : Studio → Prop} (h : P s)
    (htake : ∀ s name content, P s → P (s.take name content))
    (hnotice : ∀ s notice?, P s → P (s.setNotice notice?)) (uploads : List Upload) :
    P (s.importAll uploads).1 := by
  show P (uploads.foldl importOne s)
  induction uploads generalizing s with
  | nil => exact h
  | cons u uploads ih =>
    refine ih ?_
    unfold importOne
    split
    · exact htake s _ _ h
    · exact hnotice s _ h

end Studio
end Workbench
