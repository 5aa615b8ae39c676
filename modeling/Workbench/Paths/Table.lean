import Workbench.File.Basic
import Workbench.Paths.Resolve
import Workbench.Text.Base64
import Workbench.Text.Lowercase

/-!
# The table of paths

While a page is composed, every file is found under its name, and a renamed file also under its
first name as long as no file has that name now. The table holds its entries in the order in which
their paths were first put in. A path is looked up as it is; if that fails, the first entry is taken
whose path is the same in lower case.
-/

namespace Workbench

/-- What stands at a path. -/
structure PathTable.Entry where
  path : String
  kind : Kind
  content : Content
  deriving DecidableEq, Repr

/-- Entries in the order in which their paths were first put in, one for each path. -/
structure PathTable where
  entries : List PathTable.Entry

namespace PathTable

/-- The base64 text of the bytes of an entry. -/
def Entry.base64 (e : Entry) : String :=
  match e.content with
  | .payload s => s
  | .text s => Text.Base64.encodeText s

/-- The URL that holds the content of an entry. -/
def Entry.dataUrl (e : Entry) : String :=
  "data:" ++ File.mimeOf e.path e.kind ++ ";base64," ++ e.base64

/-- The table without entries. -/
def empty : PathTable := ⟨[]⟩

/-- The paths in the table, in order. -/
def paths (t : PathTable) : List String := t.entries.map Entry.path

/-- Puts an entry at its place among others, in place of one with the same path. -/
def insertEntry (e : Entry) : List Entry → List Entry
  | [] => [e]
  | f :: rest => if f.path = e.path then e :: rest else f :: insertEntry e rest

/-- Puts an entry into the table. -/
def insert (t : PathTable) (e : Entry) : PathTable := ⟨insertEntry e t.entries⟩

/-- The entry at exactly this path. -/
def at? (t : PathTable) (path : String) : Option Entry := t.entries.find? (·.path == path)

/-- Something stands at exactly this path. -/
def contains (t : PathTable) (path : String) : Bool := t.entries.any (·.path == path)

/-- The entry at this path or, failing that, the first one at the same path in lower case. -/
def lookup? (t : PathTable) (path : String) : Option Entry :=
  match t.at? path with
  | some e => some e
  | none =>
    let lower := Text.lowercase path
    t.entries.find? fun e => Text.lowercase e.path == lower

/-- The entry that a reference in the file at `current?` names; without such a file the reference is
a path. -/
def find? (t : PathTable) (reference : String) (current? : Option String) : Option Entry :=
  t.lookup? (match current? with
    | some current => Paths.resolve current reference
    | none => reference)

/-- The entry of a file under its name. -/
def Entry.ofFile (f : File) : Entry := ⟨f.name, f.kind, f.content⟩

/-- The entry of a file under its first name, if it has another name now. -/
def Entry.ofRenamed? (f : File) : Option Entry :=
  match f.firstName? with
  | some first => if first = f.name then none else some ⟨first, f.kind, f.content⟩
  | none => none

/-- Adds an entry unless something stands at its path. -/
def insertNew (t : PathTable) (e : Entry) : PathTable :=
  if t.contains e.path then t else t.insert e

/-- The table of a list of files. -/
def ofFiles (files : List File) : PathTable :=
  (files.filterMap Entry.ofRenamed?).foldl insertNew ((files.map Entry.ofFile).foldl insert empty)

end PathTable
end Workbench
