import Mathlib.Data.List.Nodup
import Workbench.Proofs.Paths.Table
import Workbench.Studio.Basic

/-!
# The entries of the table of paths

No two entries of a table have the same path (`nodup_paths_ofFiles`), so an entry is in the table
exactly when it stands at its own path. `mem_ofFiles_iff` says which entries these are. A file has
one under its name if no later file has the name too, and one under its first name if no file has
that name now and no earlier file was renamed from it.

So a file can be without any entry: names are not unique in a project, and of two files with one name
the later one takes the place of the earlier. `registered_iff` is the exact condition, and
`not_forall_registered` a history of the new workbench with a file that no path leads to.
-/

namespace Workbench.PathTable

variable {t : PathTable} {e : Entry} {l : List Entry} {files : List File} {f : File}

/-! ## One entry for each path -/

theorem nodup_insertEntry (h : (l.map Entry.path).Nodup) :
    ((insertEntry e l).map Entry.path).Nodup := by
  induction l with
  | nil => exact List.nodup_singleton e.path
  | cons f rest ih =>
    rw [List.map_cons, List.nodup_cons] at h
    rw [insertEntry]
    split
    · rename_i hf
      rw [List.map_cons, List.nodup_cons, ← hf]
      exact h
    · rename_i hf
      rw [List.map_cons, List.nodup_cons]
      refine ⟨fun hm => ?_, ih h.2⟩
      obtain ⟨x, hx, hp⟩ := List.mem_map.mp hm
      rcases mem_insertEntry hx with rfl | hx
      · exact hf hp.symm
      · exact h.1 (List.mem_map.mpr ⟨x, hx, hp⟩)

theorem nodup_insertNew (h : t.paths.Nodup) : (t.insertNew e).paths.Nodup := by
  unfold insertNew
  split
  · exact h
  · exact nodup_insertEntry h

theorem nodup_foldl {step : PathTable → Entry → PathTable}
    (hs : ∀ {t e}, t.paths.Nodup → (step t e).paths.Nodup) (es : List Entry)
    (h : t.paths.Nodup) : (es.foldl step t).paths.Nodup := by
  induction es generalizing t with
  | nil => exact h
  | cons e es ih => exact ih (hs h)

theorem nodup_paths_ofFiles (files : List File) : (ofFiles files).paths.Nodup :=
  nodup_foldl nodup_insertNew _ (nodup_foldl nodup_insertEntry _ List.nodup_nil)

/-- An entry is in the table exactly when it stands at its path. -/
theorem mem_entries_iff (h : t.paths.Nodup) : e ∈ t.entries ↔ t.at? e.path = some e := by
  refine ⟨fun he => ?_, List.mem_of_find?_eq_some⟩
  have hsome : (t.at? e.path).isSome = true :=
    List.find?_isSome.mpr ⟨e, he, beq_self_eq_true _⟩
  obtain ⟨e', he'⟩ := Option.isSome_iff_exists.mp hsome
  have hpath := List.find?_some he'
  rw [he', List.inj_on_of_nodup_map h (List.mem_of_find?_eq_some he') he (eq_of_beq hpath)]

/-! ## The file behind an entry -/

/-- The file is in the list, and no file after it has its name. -/
def LastNamed (files : List File) (f : File) : Prop :=
  ∃ before after, files = before ++ f :: after ∧ ∀ g ∈ after, g.name ≠ f.name

/-- The file is in the list and was renamed from this name, which no file has now and no file before
it was renamed from. -/
def FirstRenamed (files : List File) (first : String) (f : File) : Prop :=
  (∀ g ∈ files, g.name ≠ first) ∧ ∃ before after, files = before ++ f :: after ∧
    f.firstName? = some first ∧ ∀ g ∈ before, g.firstName? ≠ some first

theorem lastNamed_iff :
    files.reverse.find? (·.name == f.name) = some f ↔ LastNamed files f := by
  rw [List.find?_eq_some_iff_append]
  constructor
  · rintro ⟨-, after, before, hl, ha⟩
    refine ⟨before.reverse, after.reverse, ?_, fun g hg => ?_⟩
    · have := congrArg List.reverse hl
      simpa using this
    · have := ha g (List.mem_reverse.mp hg)
      simpa using this
  · rintro ⟨before, after, rfl, ha⟩
    refine ⟨beq_self_eq_true _, after.reverse, before.reverse, by simp, fun g hg => ?_⟩
    simpa using ha g (List.mem_reverse.mp hg)

/-- While no file has the name, the files renamed from it are those with an entry there. -/
theorem ofRenamed?_any {path : String} (hf : f.name ≠ path) :
    (Entry.ofRenamed? f).any (·.path == path) = (f.firstName? == some path) := by
  unfold Entry.ofRenamed?
  cases f.firstName? with
  | none => rfl
  | some first =>
    by_cases h : first = path
    · simp [h, hf.symm]
    · by_cases hn : first = f.name
      · simp [hn, hf]
      · simp [hn]

theorem ofRenamed?_of_firstName? {first : String} (hf : f.name ≠ first)
    (h : f.firstName? = some first) : Entry.ofRenamed? f = some ⟨first, f.kind, f.content⟩ := by
  simp [Entry.ofRenamed?, h, hf.symm]

theorem firstRenamed_iff {path : String} (hn : ∀ g ∈ files, g.name ≠ path) :
    (files.filterMap Entry.ofRenamed?).find? (·.path == path) = some e ↔
      ∃ f, FirstRenamed files path f ∧ e = ⟨path, f.kind, f.content⟩ := by
  rw [List.find?_filterMap, Option.bind_eq_some_iff]
  constructor
  · rintro ⟨f, hf, he⟩
    obtain ⟨hok, before, after, rfl, hb⟩ := List.find?_eq_some_iff_append.mp hf
    have hfn := hn f (by simp)
    rw [ofRenamed?_any hfn, beq_iff_eq] at hok
    refine ⟨f, ⟨hn, before, after, rfl, hok, fun g hg => ?_⟩, ?_⟩
    · have hg' := hb g hg
      rw [ofRenamed?_any (hn g (List.mem_append_left _ hg))] at hg'
      simpa using hg'
    · rw [ofRenamed?_of_firstName? hfn hok] at he
      exact (Option.some.inj he).symm
  · rintro ⟨f, ⟨-, before, after, rfl, hfirst, hb⟩, rfl⟩
    have hfn := hn f (by simp)
    refine ⟨f, List.find?_eq_some_iff_append.mpr ⟨?_, before, after, rfl, fun g hg => ?_⟩,
      ofRenamed?_of_firstName? hfn hfirst⟩
    · rw [ofRenamed?_any hfn, beq_iff_eq]
      exact hfirst
    · rw [ofRenamed?_any (hn g (List.mem_append_left _ hg))]
      simpa using hb g hg

/-- The entries of the table of a list of files: those of the files that are the last with their
name, and under a name that no file has those of the first file that was renamed from it. -/
theorem mem_ofFiles_iff (files : List File) (e : Entry) :
    e ∈ (ofFiles files).entries ↔
      (∃ f, LastNamed files f ∧ e = .ofFile f) ∨
        ∃ f, FirstRenamed files e.path f ∧ e = ⟨e.path, f.kind, f.content⟩ := by
  rw [mem_entries_iff (nodup_paths_ofFiles files), at?_ofFiles]
  cases hl : files.reverse.find? (·.name == e.path) with
  | some g =>
    have hname := List.find?_some hl
    have hg : g.name = e.path := eq_of_beq hname
    have hlast : LastNamed files g := lastNamed_iff.mp (hg ▸ hl)
    rw [Option.map_some, Option.some_or, Option.some_inj]
    constructor
    · rintro rfl
      exact .inl ⟨g, hlast, rfl⟩
    · rintro (⟨f, hf, rfl⟩ | ⟨f, ⟨hn, -⟩, -⟩)
      · have hf' := lastNamed_iff.mpr hf
        rw [Option.some.inj (hl.symm.trans hf')]
      · exact absurd hg (hn g (List.mem_reverse.mp (List.mem_of_find?_eq_some hl)))
  | none =>
    have hn : ∀ g ∈ files, g.name ≠ e.path := fun g hg => by
      simpa using List.find?_eq_none.mp hl g (List.mem_reverse.mpr hg)
    rw [Option.map_none, Option.none_or, firstRenamed_iff hn]
    refine ⟨.inr, fun h => h.resolve_left ?_⟩
    rintro ⟨f, hf, rfl⟩
    exact Option.some_ne_none f ((lastNamed_iff.mpr hf).symm.trans hl)

/-- Some path leads to the kind and the content of the file. -/
def Registered (t : PathTable) (f : File) : Prop :=
  ∃ e ∈ t.entries, e.kind = f.kind ∧ e.content = f.content

/-- The paths of a table are distinct. They lead to the kind and the content of a file exactly when
it, or a file of the same kind and content, is the last file with its name or the first one renamed
from a name that no file has. -/
theorem registered_iff (files : List File) :
    (ofFiles files).paths.Nodup ∧
    ∀ f, Registered (ofFiles files) f ↔ ∃ g, g.kind = f.kind ∧ g.content = f.content ∧
      (LastNamed files g ∨ ∃ first, FirstRenamed files first g) := by
  refine ⟨nodup_paths_ofFiles files, fun f => ⟨?_, ?_⟩⟩
  · rintro ⟨e, he, hk, hc⟩
    rcases (mem_ofFiles_iff files e).mp he with ⟨g, hg, rfl⟩ | ⟨g, hg, he⟩
    · exact ⟨g, hk, hc, .inl hg⟩
    · rw [he] at hk hc
      exact ⟨g, hk, hc, .inr ⟨e.path, hg⟩⟩
  · rintro ⟨g, hk, hc, hg | ⟨first, hg⟩⟩
    · exact ⟨.ofFile g, (mem_ofFiles_iff files _).mpr (.inl ⟨g, hg, rfl⟩), hk, hc⟩
    · exact ⟨⟨first, g.kind, g.content⟩, (mem_ofFiles_iff files _).mpr (.inr ⟨g, hg, rfl⟩), hk, hc⟩

end Workbench.PathTable

namespace Workbench.Studio

/-- The style sheet of the new workbench, once a file of the same name is added. -/
theorem not_forall_registered :
    ¬ ∀ (history : List Action), ∀ f ∈ (start.run history).1.project.files,
      PathTable.Registered (PathTable.ofFiles (start.run history).1.project.files) f := by
  intro h
  obtain ⟨e, he, -, hc⟩ := h [.add "style.css"]
    (.new 1 "style.css" .css (.text Project.starterStyle)) (by decide)
  revert e
  decide

end Workbench.Studio
