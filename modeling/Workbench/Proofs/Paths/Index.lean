import Mathlib.Data.List.Induction
import Workbench.Paths.Index
import Workbench.Proofs.Paths.Entries

/-!
# The table with an index

A table with an index keeps its entries and the places of their paths apart, and an insertion
changes the one or both. `Indexes` says that they agree: the entries are those of a plain table, and
the place of a path is where it stands among them. One insertion keeps this (`Indexes.insert`), so
it holds of every table that grew from the empty one (`indexes_ofEntries`).

`keeps_first_places` draws the conclusion. The paths stand in the order in which they were first put
in, each once. Exactly at a path the last entry that was put in there is found, and a path at which
nothing was put in leads to the first entry with the same path in lower case, if there is one.
-/

namespace Workbench

open PathTable (Entry)

variable {l : List Entry} {e : Entry} {i : Nat} {path : String}

namespace PathTable

/-! ## Where an entry is put in -/

theorem paths_insert (t : PathTable) (e : Entry) :
    (t.insert e).paths = if e.path ∈ t.paths then t.paths else t.paths ++ [e.path] := by
  obtain ⟨l⟩ := t
  show (insertEntry e l).map Entry.path =
    if e.path ∈ l.map Entry.path then l.map Entry.path else l.map Entry.path ++ [e.path]
  induction l with
  | nil => rfl
  | cons f rest ih =>
    rw [insertEntry]
    by_cases hf : f.path = e.path
    · simp [hf]
    · rw [if_neg hf, List.map_cons, ih]
      by_cases hr : e.path ∈ rest.map Entry.path
      · simp [hr]
      · simp [hr, Ne.symm hf]

/-- An entry takes the place of the one with its path. -/
theorem insertEntry_eq_set (hn : (l.map Entry.path).Nodup)
    (h : (l.map Entry.path)[i]? = some e.path) : insertEntry e l = l.set i e := by
  induction l generalizing i with
  | nil => simp at h
  | cons f rest ih =>
    rw [List.map_cons, List.nodup_cons] at hn
    rw [insertEntry]
    cases i with
    | zero =>
      have hf : f.path = e.path := by simpa using h
      rw [if_pos hf, List.set_cons_zero]
    | succ i =>
      have hr : (rest.map Entry.path)[i]? = some e.path := by simpa using h
      have hf : f.path ≠ e.path := fun hf => hn.1 (hf ▸ List.mem_of_getElem? hr)
      rw [if_neg hf, ih hn.2 hr, List.set_cons_succ]

theorem insertEntry_eq_append (h : e.path ∉ l.map Entry.path) : insertEntry e l = l ++ [e] := by
  induction l with
  | nil => rfl
  | cons f rest ih =>
    rw [List.map_cons, List.mem_cons, not_or] at h
    rw [insertEntry, if_neg (Ne.symm h.1), ih h.2, List.cons_append]

theorem nodup_paths_foldl_insert (es : List Entry) : (es.foldl insert empty).paths.Nodup :=
  nodup_foldl nodup_insertEntry es List.nodup_nil

/-- The paths stand in the order in which they were first put in. -/
theorem paths_foldl_insert (es : List Entry) :
    (es.foldl insert empty).paths = (es.map Entry.path).eraseDups := by
  induction es using List.reverseRecOn with
  | nil => rfl
  | append_singleton es e ih =>
    rw [List.foldl_append, List.foldl_cons, List.foldl_nil, paths_insert, ih, List.map_append,
      List.map_singleton, List.eraseDups_append]
    by_cases h : e.path ∈ es.map Entry.path
    · have hnew : [e.path].removeAll (es.map Entry.path) = [] := by
        rw [List.removeAll, List.filter_eq_nil_iff]
        simpa using h
      rw [if_pos (List.mem_eraseDups.mpr h), hnew, List.eraseDups_nil, List.append_nil]
    · have hnew : [e.path].removeAll (es.map Entry.path) = [e.path] := by
        rw [List.removeAll, List.filter_eq_self]
        simpa using h
      rw [if_neg (mt List.mem_eraseDups.mp h), hnew]
      rfl

/-- At a path stands what was put in there last. -/
theorem at?_foldl_insert_of_last {before after : List Entry} (t : PathTable)
    (h : ∀ g ∈ after, g.path ≠ e.path) :
    ((before ++ e :: after).foldl insert t).at? e.path = some e := by
  have hlast : (before ++ e :: after).reverse.find? (·.path == e.path) = some e := by
    refine List.find?_eq_some_iff_append.mpr ⟨beq_self_eq_true _, after.reverse, before.reverse,
      by simp, fun g hg => ?_⟩
    simpa using h g (List.mem_reverse.mp hg)
  rw [at?_foldl_insert, hlast, Option.some_or]

theorem at?_eq_none_of_not_mem {t : PathTable} (h : path ∉ t.paths) : t.at? path = none := by
  refine List.find?_eq_none.mpr fun e he hp => h ?_
  exact List.mem_map.mpr ⟨e, he, eq_of_beq hp⟩

/-- A path without an entry of its own is looked up in lower case. -/
theorem lookup?_of_not_mem {t : PathTable} (h : path ∉ t.paths) :
    t.lookup? path =
      t.entries.find? fun e => Text.lowercase e.path == Text.lowercase path := by
  rw [lookup?, at?_eq_none_of_not_mem h]

end PathTable

namespace PathIndex

variable {t : PathIndex} {p : PathTable}

/-! ## Entries and index agree -/

/-- The table has the entries of the plain one, and its index the place of each path. -/
structure Indexes (t : PathIndex) (p : PathTable) : Prop where
  entries_eq : t.entries = p.entries
  place?_iff : ∀ path i, t.place? path = some i ↔ p.paths[i]? = some path

theorem Indexes.place?_eq_none_iff (h : Indexes t p) : t.place? path = none ↔ path ∉ p.paths := by
  rw [Option.eq_none_iff_forall_ne_some]
  simp only [ne_eq, h.place?_iff, List.mem_iff_getElem?, not_exists]

theorem getElem?_concat_eq_some_iff {α : Type} {l : List α} {x y : α} :
    (l ++ [x])[i]? = some y ↔ l[i]? = some y ∨ i = l.length ∧ y = x := by
  rw [List.getElem?_append]
  split
  · rename_i hi
    exact ⟨.inl, fun h => h.resolve_right fun h => Nat.ne_of_lt hi h.1⟩
  · rename_i hi
    have hn : l[i]? = none := List.getElem?_eq_none (Nat.not_lt.mp hi)
    rw [List.getElem?_singleton, hn]
    by_cases hl : i = l.length
    · simp [hl, eq_comm]
    · have hsub : i - l.length ≠ 0 := by omega
      simp [hl, hsub]

/-- An insertion keeps the index right: at an old path no place changes, and a new path gets the
place behind all others. -/
theorem Indexes.insert (h : Indexes t p) (hn : p.paths.Nodup) (e : Entry) :
    Indexes (t.insert e) (p.insert e) := by
  unfold PathIndex.insert
  cases hp : t.place? e.path with
  | some i =>
    have hi := (h.place?_iff e.path i).mp hp
    refine ⟨?_, fun path j => ?_⟩
    · show t.entries.set i e = PathTable.insertEntry e p.entries
      rw [h.entries_eq, PathTable.insertEntry_eq_set hn hi]
    · rw [PathTable.paths_insert, if_pos (List.mem_of_getElem? hi)]
      exact h.place?_iff path j
  | none =>
    have hnew := h.place?_eq_none_iff.mp hp
    have hlen : t.entries.length = p.paths.length := by
      rw [h.entries_eq, PathTable.paths, List.length_map]
    refine ⟨?_, fun path j => ?_⟩
    · show t.entries ++ [e] = PathTable.insertEntry e p.entries
      rw [h.entries_eq, PathTable.insertEntry_eq_append hnew]
    · rw [PathTable.paths_insert, if_neg hnew, getElem?_concat_eq_some_iff, ← hlen]
      show (if path = e.path then some t.entries.length else t.place? path) = some j ↔ _
      by_cases hpath : path = e.path
      · subst hpath
        have hold : p.paths[j]? ≠ some e.path := fun hj => hnew (List.mem_of_getElem? hj)
        rw [if_pos rfl, Option.some_inj]
        exact ⟨fun hj => .inr ⟨hj.symm, rfl⟩, fun hj => (hj.resolve_left hold).1.symm⟩
      · rw [if_neg hpath, h.place?_iff]
        exact ⟨.inl, fun hj => hj.resolve_right fun hj => hpath hj.2⟩

theorem indexes_ofEntries (es : List Entry) :
    Indexes (ofEntries es) (es.foldl PathTable.insert PathTable.empty) := by
  induction es using List.reverseRecOn with
  | nil => exact ⟨rfl, fun path i => by simp [ofEntries, empty, PathTable.empty, PathTable.paths]⟩
  | append_singleton es e ih =>
    rw [ofEntries, List.foldl_append, List.foldl_append]
    exact ih.insert (PathTable.nodup_paths_foldl_insert es) e

/-! ## Look-ups -/

/-- The index changes no answer. -/
theorem Indexes.lookup?_eq (h : Indexes t p) (hn : p.paths.Nodup) (path : String) :
    t.lookup? path = p.lookup? path := by
  rw [PathIndex.lookup?, h.entries_eq]
  cases hp : t.place? path with
  | some i =>
    have hi : (p.entries.map Entry.path)[i]? = some path := (h.place?_iff path i).mp hp
    rw [List.getElem?_map] at hi
    obtain ⟨e, he, rfl⟩ := Option.map_eq_some_iff.mp hi
    have hat := (PathTable.mem_entries_iff hn).mp (List.mem_of_getElem? he)
    rw [PathTable.lookup?, hat]
    exact he
  | none => exact (PathTable.lookup?_of_not_mem (h.place?_eq_none_iff.mp hp)).symm

theorem Indexes.find?_eq (h : Indexes t p) (hn : p.paths.Nodup) (reference : String)
    (current? : Option String) : t.find? reference current? = p.find? reference current? :=
  h.lookup?_eq hn _

/-- How a table that grew by these insertions answers. -/
structure KeepsFirstPlaces (es : List Entry) (t : PathIndex) : Prop where
  nodup : t.paths.Nodup
  paths_eq : t.paths = (es.map Entry.path).eraseDups
  /-- The index and the entries agree. -/
  place?_iff : ∀ path i, t.place? path = some i ↔ t.paths[i]? = some path
  /-- At a path the last entry is found that was put in there. -/
  find?_last : ∀ before e after, es = before ++ e :: after → (∀ g ∈ after, g.path ≠ e.path) →
    t.find? e.path none = some e
  /-- Any other path leads to the first entry with this path in lower case. -/
  find?_other : ∀ path, (∀ g ∈ es, g.path ≠ path) → ∀ e, t.find? path none = some e ↔
    ∃ before after, t.entries = before ++ e :: after ∧
      Text.lowercase e.path = Text.lowercase path ∧
      ∀ g ∈ before, Text.lowercase g.path ≠ Text.lowercase path
  find?_eq_none_iff : ∀ path, (∀ g ∈ es, g.path ≠ path) → (t.find? path none = none ↔
    ∀ g ∈ t.entries, Text.lowercase g.path ≠ Text.lowercase path)
  /-- A reference in a file is a path that is resolved first. -/
  find?_relative : ∀ reference current, t.find? reference (some current) =
    t.find? (Paths.resolve current reference) none
  /-- The table of a page answers in the same way. -/
  find?_eq : ∀ reference current?, t.find? reference current? =
    (es.foldl PathTable.insert PathTable.empty).find? reference current?

/-- A table that grew from the empty one has its paths in the order in which they were first put in,
each once, and finds at each of them what was put in last. -/
theorem keeps_first_places (es : List Entry) : KeepsFirstPlaces es (ofEntries es) := by
  have h := indexes_ofEntries es
  have hn := PathTable.nodup_paths_foldl_insert es
  have hpaths : (ofEntries es).paths = (es.foldl PathTable.insert PathTable.empty).paths :=
    congrArg (List.map Entry.path) h.entries_eq
  have hother {path : String} (hp : ∀ g ∈ es, g.path ≠ path) :
      (ofEntries es).find? path none = (ofEntries es).entries.find? fun e =>
        Text.lowercase e.path == Text.lowercase path := by
    have hnot : path ∉ (es.foldl PathTable.insert PathTable.empty).paths := by
      rw [PathTable.paths_foldl_insert, List.mem_eraseDups, List.mem_map]
      rintro ⟨g, hg, he⟩
      exact hp g hg he
    rw [h.find?_eq hn, h.entries_eq]
    exact PathTable.lookup?_of_not_mem hnot
  refine ⟨hpaths ▸ hn, ?_, ?_, ?_, ?_, ?_, fun _ _ => rfl, h.find?_eq hn⟩
  · rw [hpaths, PathTable.paths_foldl_insert]
  · rw [hpaths]
    exact h.place?_iff
  · rintro before e after rfl hafter
    rw [h.find?_eq hn]
    exact PathTable.find?_of_at? (PathTable.at?_foldl_insert_of_last _ hafter)
  · intro path hp e
    rw [hother hp, List.find?_eq_some_iff_append]
    simp [and_left_comm]
  · intro path hp
    rw [hother hp, List.find?_eq_none]
    simp

end PathIndex
end Workbench
