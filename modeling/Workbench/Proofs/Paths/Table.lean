import Workbench.Paths.Table

/-!
# What stands at a path

The table of a list of files is built in two passes: under their names the last file wins, under
their first names the first one, and a name goes before a first name.

* `at?_ofFiles` says so for the entry at exactly one path.
* `lookup?_ofFiles` says on which files a look-up depends: only on those that have the path as one
  of their names, up to letter case. No other file can get in the way, wherever it stands.
-/

namespace Workbench

/-- The names under which a reference can find the file: its name and its first name. -/
def File.names (f : File) : List String := f.name :: f.firstName?.toList

namespace PathTable

variable (t : PathTable) (e : Entry) (es : List Entry) (files : List File) (path : String)

/-! ## The entry at a path -/

theorem find?_insertEntry (l : List Entry) :
    (insertEntry e l).find? (·.path == path) =
      if e.path = path then some e else l.find? (·.path == path) := by
  induction l with
  | nil =>
    rw [insertEntry]
    by_cases h : e.path = path <;> simp [h]
  | cons f rest ih =>
    rw [insertEntry]
    by_cases hf : f.path = e.path
    · rw [if_pos hf]
      by_cases h : e.path = path <;> simp [hf, h]
    · rw [if_neg hf, List.find?_cons, List.find?_cons, ih]
      by_cases h : e.path = path
      · have hn : (f.path == path) = false := by simpa [← h] using hf
        simp [h, hn]
      · simp [h]

theorem at?_insert : (t.insert e).at? path = if e.path = path then some e else t.at? path :=
  find?_insertEntry e path t.entries

theorem contains_eq : t.contains path = (t.at? path).isSome := List.isSome_find?.symm

theorem at?_insertNew :
    (t.insertNew e).at? path = (t.at? path).or (if e.path = path then some e else none) := by
  rw [insertNew, contains_eq]
  by_cases hp : e.path = path
  · subst hp
    cases h : t.at? e.path <;> simp [at?_insert, h]
  · rw [if_neg hp, Option.or_none]
    split
    · rfl
    · rw [at?_insert, if_neg hp]

/-- Of entries put in one after the other the last one stays. -/
theorem at?_foldl_insert :
    (es.foldl insert t).at? path = (es.reverse.find? (·.path == path)).or (t.at? path) := by
  induction es generalizing t with
  | nil => rfl
  | cons e es ih =>
    rw [List.foldl_cons, ih, at?_insert, List.reverse_cons, List.find?_append, Option.or_assoc]
    by_cases h : e.path = path <;> simp [h]

/-- Of entries that give way to what is there the first one stays. -/
theorem at?_foldl_insertNew :
    (es.foldl insertNew t).at? path = (t.at? path).or (es.find? (·.path == path)) := by
  induction es generalizing t with
  | nil => rw [List.foldl_nil, List.find?_nil, Option.or_none]
  | cons e es ih =>
    rw [List.foldl_cons, ih, at?_insertNew, Option.or_assoc]
    by_cases h : e.path = path <;> simp [h]

/-- At a path stands the last file with this name or, without one, the first file that was renamed
from it. -/
theorem at?_ofFiles :
    (ofFiles files).at? path =
      ((files.reverse.find? (·.name == path)).map Entry.ofFile).or
        ((files.filterMap Entry.ofRenamed?).find? (·.path == path)) := by
  have he : empty.at? path = none := rfl
  rw [ofFiles, at?_foldl_insertNew, at?_foldl_insert, he, Option.or_none, ← List.map_reverse,
    List.find?_map]
  rfl

theorem find?_of_at? {t : PathTable} {e : Entry} {path : String} (h : t.at? path = some e) :
    t.find? path none = some e := by
  unfold find? lookup?
  rw [h]

/-! ## The files behind the entries -/

theorem mem_of_lookup? {t : PathTable} {e : Entry} {path : String}
    (h : t.lookup? path = some e) : e ∈ t.entries := by
  unfold lookup? at h
  split at h
  · rename_i e' he
    obtain rfl := Option.some.inj h
    exact List.mem_of_find?_eq_some he
  · exact List.mem_of_find?_eq_some h

theorem mem_insertEntry {e x : Entry} {l : List Entry} (h : x ∈ insertEntry e l) :
    x = e ∨ x ∈ l := by
  induction l with
  | nil => exact Or.inl (List.mem_singleton.mp h)
  | cons f rest ih =>
    rw [insertEntry] at h
    split at h
    · exact (List.mem_cons.mp h).imp_right (List.mem_cons_of_mem f)
    · rcases List.mem_cons.mp h with rfl | h
      · exact Or.inr List.mem_cons_self
      · exact (ih h).imp_right (List.mem_cons_of_mem f)

theorem mem_insertNew {t : PathTable} {e x : Entry} (h : x ∈ (t.insertNew e).entries) :
    x = e ∨ x ∈ t.entries := by
  unfold insertNew at h
  split at h
  · exact Or.inr h
  · exact mem_insertEntry h

theorem mem_foldl {step : PathTable → Entry → PathTable}
    (hs : ∀ {t : PathTable} {e x : Entry}, x ∈ (step t e).entries → x = e ∨ x ∈ t.entries)
    {es : List Entry} {t : PathTable} {x : Entry} (h : x ∈ (es.foldl step t).entries) :
    x ∈ es ∨ x ∈ t.entries := by
  induction es generalizing t with
  | nil => exact Or.inr h
  | cons e es ih =>
    rcases ih h with h | h
    · exact Or.inl (List.mem_cons_of_mem e h)
    · rcases hs h with rfl | h
      · exact Or.inl List.mem_cons_self
      · exact Or.inr h

/-- An entry has the kind of a file that it is an entry of. -/
theorem exists_of_mem_ofFiles {files : List File} {e : Entry} (h : e ∈ (ofFiles files).entries) :
    ∃ f ∈ files, f.kind = e.kind := by
  rcases mem_foldl mem_insertNew h with h | h
  · obtain ⟨f, hf, he⟩ := List.mem_filterMap.mp h
    refine ⟨f, hf, ?_⟩
    unfold Entry.ofRenamed? at he
    split at he
    · split at he
      · cases he
      · cases he
        rfl
    · cases he
  · rcases mem_foldl mem_insertEntry h with h | h
    · obtain ⟨f, hf, rfl⟩ := List.mem_map.mp h
      exact ⟨f, hf, rfl⟩
    · exact absurd h List.not_mem_nil

/-! ## The entries near a path -/

/-- The two paths are the same up to letter case. -/
def alike (path other : String) : Bool := Text.lowercase other == Text.lowercase path

theorem alike_self : alike path path = true := beq_self_eq_true _

/-- The entries whose path is this one up to letter case. -/
def near : PathTable := ⟨t.entries.filter fun e => alike path e.path⟩

/-- A look-up sees nothing but the entries near its path. -/
theorem lookup?_near : (t.near path).lookup? path = t.lookup? path := by
  have ha : (t.near path).at? path = t.at? path := by
    unfold at? near
    rw [List.find?_filter]
    refine congrArg (List.find? · _) (funext fun e => ?_)
    by_cases h : e.path = path <;> simp [h, alike_self]
  have hl : (t.near path).entries.find? (fun e => Text.lowercase e.path == Text.lowercase path) =
      t.entries.find? fun e => Text.lowercase e.path == Text.lowercase path := by
    unfold near alike
    rw [List.find?_filter]
    exact congrArg (List.find? · _) (funext fun e => Bool.eq_iff_iff.mpr (by simp))
  unfold lookup?
  simp only [ha, hl]

/-- Putting an entry in and leaving entries out by their paths can change places. -/
theorem filter_insertEntry (ok : String → Bool) (l : List Entry) :
    (insertEntry e l).filter (fun e => ok e.path) =
      if ok e.path then insertEntry e (l.filter fun e => ok e.path)
      else l.filter fun e => ok e.path := by
  induction l with
  | nil => cases h : ok e.path <;> simp [insertEntry, h]
  | cons f rest ih =>
    rw [insertEntry]
    by_cases hf : f.path = e.path
    · cases h : ok e.path <;> simp [hf, h, insertEntry]
    · rw [if_neg hf, List.filter_cons, List.filter_cons, ih]
      cases h : ok e.path <;> cases h' : ok f.path <;> simp [hf, insertEntry]

theorem near_insert :
    (t.insert e).near path = if alike path e.path then (t.near path).insert e else t.near path := by
  unfold near insert
  rw [filter_insertEntry e (alike path)]
  cases alike path e.path <;> rfl

theorem contains_near (h : alike path e.path = true) :
    (t.near path).contains e.path = t.contains e.path := by
  unfold contains near
  rw [List.any_filter]
  refine congrArg (List.any _) (funext fun f => ?_)
  by_cases hf : f.path = e.path <;> simp [hf, h]

theorem near_insertNew :
    (t.insertNew e).near path =
      if alike path e.path then (t.near path).insertNew e else t.near path := by
  unfold insertNew
  cases h : alike path e.path with
  | true =>
    rw [if_pos rfl, contains_near t e path h]
    split
    · rfl
    · rw [near_insert, h, if_pos rfl]
  | false =>
    rw [if_neg Bool.false_ne_true]
    split
    · rfl
    · rw [near_insert, h, if_neg Bool.false_ne_true]

/-- A way to put entries in that leaves the places near a path alone with every other entry does so
with any number of them. -/
theorem near_foldl {step : PathTable → Entry → PathTable}
    (hs : ∀ t e, (step t e).near path =
      if alike path e.path then step (t.near path) e else t.near path) :
    (es.foldl step t).near path =
      (es.filter fun e => alike path e.path).foldl step (t.near path) := by
  induction es generalizing t with
  | nil => rfl
  | cons e es ih =>
    rw [List.foldl_cons, ih, hs]
    cases h : alike path e.path <;> simp [h]

/-- The file has the path as one of its names, up to letter case. -/
def answers (f : File) : Bool := f.names.any (alike path)

theorem answers_of_alike {f : File} (h : alike path f.name = true) : answers path f = true := by
  rw [answers, File.names, List.any_cons, h, Bool.true_or]

theorem answers_of_renamed {e : Entry} {f : File} (hf : Entry.ofRenamed? f = some e)
    (h : alike path e.path = true) : answers path f = true := by
  unfold Entry.ofRenamed? at hf
  split at hf
  · rename_i first hfirst
    split at hf
    · cases hf
    · cases hf
      simp [answers, File.names, hfirst, h]
  · cases hf

/-- The table of files has the same entries near a path as the table of those that answer to it. -/
theorem near_ofFiles :
    (ofFiles (files.filter (answers path))).near path = (ofFiles files).near path := by
  have hn : ((files.filter (answers path)).map Entry.ofFile).filter (fun e => alike path e.path) =
      (files.map Entry.ofFile).filter fun e => alike path e.path := by
    rw [List.filter_map, List.filter_map, List.filter_filter]
    refine congrArg (List.map _) (List.filter_congr fun f _ => ?_)
    cases h : alike path f.name with
    | true => simp [Entry.ofFile, h, answers_of_alike path h]
    | false => simp [Entry.ofFile, h]
  have hr : ((files.filter (answers path)).filterMap Entry.ofRenamed?).filter
        (fun e => alike path e.path) =
      (files.filterMap Entry.ofRenamed?).filter fun e => alike path e.path := by
    rw [List.filterMap_filter, List.filter_filterMap, List.filter_filterMap]
    refine congrArg (List.filterMap · _) (funext fun f => ?_)
    cases hf : Entry.ofRenamed? f with
    | none => simp
    | some e =>
      cases h : alike path e.path with
      | true => simp [answers_of_renamed path hf h]
      | false => cases answers path f <;> simp [Option.filter_some, h]
  unfold ofFiles
  rw [near_foldl _ _ _ fun t e => near_insertNew t e path,
    near_foldl _ _ _ fun t e => near_insertNew t e path,
    near_foldl _ _ _ fun t e => near_insert t e path,
    near_foldl _ _ _ fun t e => near_insert t e path, hn, hr]

/-- A path is looked up among the files that answer to it. -/
theorem lookup?_ofFiles :
    (ofFiles (files.filter (answers path))).lookup? path = (ofFiles files).lookup? path := by
  rw [← lookup?_near, near_ofFiles, lookup?_near]

end PathTable
end Workbench
