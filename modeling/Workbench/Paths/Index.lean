import Workbench.Paths.Table

/-!
# A table with an index

A table of paths that grows entry by entry. The index knows the place of every path among the
entries: an entry whose path is there already takes its place, and a look-up of exactly this path
needs no search. Only the look-up that forgives letter case goes through the entries.
-/

namespace Workbench

/-- Entries in the order in which their paths were first put in, and the place of each path among
them. -/
structure PathIndex where
  entries : List PathTable.Entry
  place? : String → Option Nat

namespace PathIndex

open PathTable (Entry)

/-- The table without entries. -/
def empty : PathIndex := ⟨[], fun _ => none⟩

/-- The paths in the table, in order. -/
def paths (t : PathIndex) : List String := t.entries.map Entry.path

/-- Puts an entry into the table: in place of the one with the same path, or at the end. -/
def insert (t : PathIndex) (e : Entry) : PathIndex :=
  match t.place? e.path with
  | some i => { t with entries := t.entries.set i e }
  | none =>
    { entries := t.entries ++ [e]
      place? := fun path => if path = e.path then some t.entries.length else t.place? path }

/-- The table after entries were put in one after the other. -/
def ofEntries (es : List Entry) : PathIndex := es.foldl insert empty

/-- The entry at this path or, failing that, the first one at the same path in lower case. -/
def lookup? (t : PathIndex) (path : String) : Option Entry :=
  match t.place? path with
  | some i => t.entries[i]?
  | none => t.entries.find? fun e => Text.lowercase e.path == Text.lowercase path

/-- The entry that a reference in the file at `current?` names; without such a file the reference is
a path. -/
def find? (t : PathIndex) (reference : String) (current? : Option String) : Option Entry :=
  t.lookup? (match current? with
    | some current => Paths.resolve current reference
    | none => reference)

end PathIndex
end Workbench
