import Workbench.Page.Document

/-!
# Projects

A project is a list of files and the mode in which it is composed. Ids are handed out in increasing
order and never again. `Edit` lists the ways in which a project changes and `run` applies a history
of them, so that a statement about every project that can arise is a statement about every history.
-/

namespace Workbench

/-- How the files of a project become a page. -/
inductive Mode where
  /-- One document is shown as it is. -/
  | single
  /-- All files are merged. -/
  | multi
  deriving DecidableEq, Repr

/-- Several files are merged unless the user wants otherwise. -/
instance : Inhabited Mode := ⟨.multi⟩

/-- Files, the mode, and the id for the next file. -/
structure Project where
  mode : Mode
  files : List File
  nextId : Nat
  deriving DecidableEq, Repr

namespace Project

/-- The project without files. -/
def new (mode : Mode) : Project := ⟨mode, [], 0⟩

/-- Adds a file at the end; its id is the `nextId` before. -/
def add (p : Project) (name : String) (kind : Kind) (content : Content) : Project :=
  { p with files := p.files ++ [File.new p.nextId name kind content], nextId := p.nextId + 1 }

/-- A project of text files. -/
def ofTexts (mode : Mode) (texts : List (String × Kind × String)) : Project :=
  texts.foldl (fun p t => p.add t.1 t.2.1 (.text t.2.2)) (new mode)

/-- The file with this id. -/
def file? (p : Project) (id : Nat) : Option File := p.files.find? (·.id == id)

/-- A file has this id. -/
def has (p : Project) (id : Nat) : Bool := p.files.any (·.id == id)

/-- Takes a file out. -/
def remove (p : Project) (id : Nat) : Project := { p with files := p.files.filter (·.id != id) }

/-- Changes the file with this id, if there is one. Ids are distinct in every project that a history
leads to, so that there is never more than one. -/
def update (p : Project) (id : Nat) (change : File → File) : Project :=
  { p with files := p.files.map fun f => if f.id = id then change f else f }

/-- Gives a file a new text; bytes become text. -/
def setText (p : Project) (id : Nat) (text : String) : Project :=
  p.update id fun f => { f with content := .text text }

/-- Gives a file a new name. -/
def rename (p : Project) (id : Nat) (name : String) : Project := p.update id (·.rename name)

/-- Gives a file a new kind. -/
def setKind (p : Project) (id : Nat) (kind : Kind) : Project :=
  p.update id fun f => { f with kind := kind }

/-- Changes the mode. -/
def setMode (p : Project) (mode : Mode) : Project := { p with mode := mode }

/-- The document that single mode shows: the text of the first HTML file or, without one, of the
first file that holds text. -/
def soloText (p : Project) : String :=
  match p.files.find? (·.kind = .html) with
  | some f => f.text
  | none => ((p.files.find? (!·.content.isPayload)).map File.text).getD ""

/-- The page of the project. -/
def page (p : Project) : String :=
  match p.mode with
  | .single => Page.ofDocument p.soloText
  | .multi => Page.ofFiles p.files

/-- A change of a project. -/
inductive Edit where
  | add (name : String) (kind : Kind) (content : Content)
  | remove (id : Nat)
  | setText (id : Nat) (text : String)
  | rename (id : Nat) (name : String)
  | setKind (id : Nat) (kind : Kind)
  | setMode (mode : Mode)

/-- Applies a change. -/
def apply (p : Project) : Edit → Project
  | .add name kind content => p.add name kind content
  | .remove id => p.remove id
  | .setText id text => p.setText id text
  | .rename id name => p.rename id name
  | .setKind id kind => p.setKind id kind
  | .setMode mode => p.setMode mode

/-- Applies a history of changes. -/
def run (p : Project) (history : List Edit) : Project := history.foldl apply p

end Project
end Workbench
