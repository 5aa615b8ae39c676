import Workbench.Proofs.Paths.Table
import Workbench.Proofs.Project.Numbering

/-!
# Names and first names through a history

Ids count the files that were ever added, so the file with id `i` was added under the `i`-th of the
names of added files (`addedName?`). A file that was renamed keeps the name it was added under,
however often it is renamed, and a file that was not still has it (`Recalls`, kept by each change
and so by each history).

`found_under_names` draws the conclusion for references. A file is found under its name unless
another file has this name too; first names of other files do not matter. It is found under the name
it was added under unless another file has this name or was added under it.
-/

namespace Workbench

/-- The name under which the file was added. -/
def File.firstName (f : File) : String := f.firstName?.getD f.name

namespace Project

variable {p : Project} {names : List String}

/-- The name of the file that a change adds. -/
def Edit.addedName? : Edit → Option String
  | .add name _ _ => some name
  | _ => none

/-- The names of all files that a history adds, in order. -/
def addedNames (history : List Edit) : List String := history.filterMap Edit.addedName?

/-- The name under which a history of a new project adds the file with this id. -/
def addedName? (history : List Edit) (id : Nat) : Option String := (addedNames history)[id]?

/-- The ids of the project count `names`, and each file was added under the name with its number. -/
structure Recalls (names : List String) (p : Project) : Prop where
  numbered : p.Numbered
  nextId_eq : p.nextId = names.length
  firstName_eq : ∀ f ∈ p.files, names[f.id]? = some f.firstName

theorem Recalls.add (h : Recalls names p) (name : String) (kind : Kind) (content : Content) :
    Recalls (names ++ [name]) (p.add name kind content) := by
  refine ⟨h.numbered.add name kind content, ?_, fun f hf => ?_⟩
  · rw [List.length_append, List.length_singleton, ← h.nextId_eq]
    rfl
  · rcases mem_add.mp hf with hf | rfl
    · have hlt : f.id < names.length := h.nextId_eq ▸ h.numbered.below f hf
      rw [List.getElem?_append_left hlt]
      exact h.firstName_eq f hf
    · rw [File.new, h.nextId_eq, List.getElem?_concat_length]
      rfl

theorem Recalls.update (h : Recalls names p) (id : Nat) {change : File → File}
    (hid : ∀ f, (change f).id = f.id) (hfirst : ∀ f, (change f).firstName = f.firstName) :
    Recalls names (p.update id change) := by
  refine ⟨h.numbered.update id hid, h.nextId_eq, fun f hf => ?_⟩
  obtain ⟨g, hg, rfl⟩ := mem_update.mp hf
  split
  · rw [hid, hfirst]
    exact h.firstName_eq g hg
  · exact h.firstName_eq g hg

theorem Recalls.apply (h : Recalls names p) (e : Edit) :
    Recalls (names ++ e.addedName?.toList) (p.apply e) := by
  cases e with
  | add name kind content => exact h.add name kind content
  | remove id =>
    simp only [Edit.addedName?, Option.toList_none, List.append_nil]
    exact ⟨h.numbered.remove id, h.nextId_eq,
      fun f hf => h.firstName_eq f (mem_of_mem_remove hf)⟩
  | setText id text =>
    simp only [Edit.addedName?, Option.toList_none, List.append_nil]
    exact h.update id (fun _ => rfl) fun _ => rfl
  | rename id name =>
    simp only [Edit.addedName?, Option.toList_none, List.append_nil]
    exact h.update id (fun _ => rfl) fun _ => rfl
  | setKind id kind =>
    simp only [Edit.addedName?, Option.toList_none, List.append_nil]
    exact h.update id (fun _ => rfl) fun _ => rfl
  | setMode mode =>
    simp only [Edit.addedName?, Option.toList_none, List.append_nil]
    exact ⟨h.numbered.setMode mode, h.nextId_eq, h.firstName_eq⟩

theorem Recalls.run (h : Recalls names p) (history : List Edit) :
    Recalls (names ++ addedNames history) (p.run history) := by
  induction history generalizing p names with
  | nil => simpa [addedNames, Project.run] using h
  | cons e history ih =>
    have hc : addedNames (e :: history) = e.addedName?.toList ++ addedNames history := by
      cases he : e.addedName? <;> simp [addedNames, he]
    rw [hc, ← List.append_assoc]
    exact ih (h.apply e)

/-- Every history of a new project adds files under the names with their ids. -/
theorem recalls_run (mode : Mode) (history : List Edit) :
    Recalls (addedNames history) ((new mode).run history) := by
  have h : Recalls [] (new mode) := ⟨numbered_new mode, rfl, by simp [new]⟩
  simpa using h.run history

/-! ## References to a file -/

/-- The one element of a list that passes a test is found by it. -/
theorem find?_eq_some_of_forall {α : Type} {ok : α → Bool} {l : List α} {x : α} (hx : x ∈ l)
    (hok : ok x = true) (h : ∀ y ∈ l, ok y = true → y = x) : l.find? ok = some x := by
  obtain ⟨y, hy⟩ := Option.isSome_iff_exists.mp (List.find?_isSome.mpr ⟨x, hx, hok⟩)
  rw [hy, h y (List.mem_of_find?_eq_some hy) (List.find?_some hy)]

theorem Numbered.find?_name (h : p.Numbered) {f : File} (hf : f ∈ p.files)
    (hn : ∀ g ∈ p.files, g.id ≠ f.id → g.name ≠ f.name) :
    (PathTable.ofFiles p.files).find? f.name none = some (.ofFile f) := by
  have hl : p.files.reverse.find? (·.name == f.name) = some f := by
    refine find?_eq_some_of_forall (List.mem_reverse.mpr hf) (beq_self_eq_true _) fun g hg he => ?_
    have hg := List.mem_reverse.mp hg
    by_cases hid : g.id = f.id
    · exact h.eq_of_id_eq hg hf hid
    · exact absurd (eq_of_beq he) (hn g hg hid)
  refine PathTable.find?_of_at? ?_
  rw [PathTable.at?_ofFiles, hl]
  rfl

/-- A renamed file whose first name is no longer a name leaves an entry there. -/
theorem ofRenamed?_eq_some {f : File} (h : f.name ≠ f.firstName) :
    PathTable.Entry.ofRenamed? f = some ⟨f.firstName, f.kind, f.content⟩ := by
  unfold PathTable.Entry.ofRenamed? File.firstName at *
  cases hf : f.firstName? with
  | none => simp [hf] at h
  | some first =>
    simp only [hf, Option.getD_some] at h
    simp [Ne.symm h]

theorem firstName_of_ofRenamed? {f : File} {e : PathTable.Entry}
    (h : PathTable.Entry.ofRenamed? f = some e) : e.path = f.firstName := by
  unfold PathTable.Entry.ofRenamed? at h
  unfold File.firstName
  split at h
  · rename_i first hf
    split at h
    · cases h
    · cases h
      rw [hf, Option.getD_some]
  · cases h

theorem Numbered.find?_firstName (h : p.Numbered) {f : File} (hf : f ∈ p.files)
    (hn : ∀ g ∈ p.files, g.id ≠ f.id → g.name ≠ f.firstName ∧ g.firstName ≠ f.firstName) :
    (PathTable.ofFiles p.files).find? f.firstName none =
      some ⟨f.firstName, f.kind, f.content⟩ := by
  by_cases hname : f.name = f.firstName
  · rw [← hname]
    exact h.find?_name hf fun g hg hid => hname ▸ (hn g hg hid).1
  · have hl : p.files.reverse.find? (·.name == f.firstName) = none := by
      refine List.find?_eq_none.mpr fun g hg he => ?_
      have hg := List.mem_reverse.mp hg
      by_cases hid : g.id = f.id
      · obtain rfl := h.eq_of_id_eq hg hf hid
        exact hname (eq_of_beq he)
      · exact (hn g hg hid).1 (eq_of_beq he)
    have hr : (p.files.filterMap PathTable.Entry.ofRenamed?).find? (·.path == f.firstName) =
        some ⟨f.firstName, f.kind, f.content⟩ := by
      refine find?_eq_some_of_forall
        (List.mem_filterMap.mpr ⟨f, hf, ofRenamed?_eq_some hname⟩) (beq_self_eq_true _) ?_
      intro e he hpath
      obtain ⟨g, hg, hge⟩ := List.mem_filterMap.mp he
      by_cases hid : g.id = f.id
      · rw [h.eq_of_id_eq hg hf hid, ofRenamed?_eq_some hname] at hge
        exact (Option.some.inj hge).symm
      · exact absurd ((firstName_of_ofRenamed? hge).symm.trans (eq_of_beq hpath)) (hn g hg hid).2
    refine PathTable.find?_of_at? ?_
    rw [PathTable.at?_ofFiles, hl, hr]
    rfl

/-- After any history a file is found under its name if no other file has this name. It was added
under some name, and it is found under that one too if no other file has it or was added under
it. -/
theorem found_under_names (mode : Mode) (history : List Edit) (f : File)
    (hf : f ∈ ((new mode).run history).files) :
    ((∀ g ∈ ((new mode).run history).files, g.id ≠ f.id → g.name ≠ f.name) →
      (PathTable.ofFiles ((new mode).run history).files).find? f.name none =
        some ⟨f.name, f.kind, f.content⟩) ∧
    ∃ first, addedName? history f.id = some first ∧
      ((∀ g ∈ ((new mode).run history).files, g.id ≠ f.id →
          g.name ≠ first ∧ addedName? history g.id ≠ some first) →
        (PathTable.ofFiles ((new mode).run history).files).find? first none =
          some ⟨first, f.kind, f.content⟩) := by
  have h := recalls_run mode history
  refine ⟨fun hn => h.numbered.find?_name hf hn, f.firstName, h.firstName_eq f hf, fun hn => ?_⟩
  refine h.numbered.find?_firstName hf fun g hg hid => ⟨(hn g hg hid).1, fun he => ?_⟩
  exact (hn g hg hid).2 (he ▸ h.firstName_eq g hg)

/-- A file takes over the name of another one, which was renamed to make room for it. -/
def takeover : List Edit := [.add "a.css" .css (.text ""), .add "b.css" .css (.text "old"),
  .rename 1 "c.css", .rename 0 "b.css", .setText 0 "new"]

theorem found_under_names_takeover :
    ⟨0, "b.css", some "a.css", .css, .text "new"⟩ ∈ ((new .multi).run takeover).files ∧
    (∀ g ∈ ((new .multi).run takeover).files, g.id ≠ 0 → g.name ≠ "b.css") ∧
    (PathTable.ofFiles ((new .multi).run takeover).files).find? "b.css" none =
      some ⟨"b.css", .css, .text "new"⟩ ∧
    addedName? takeover 0 = some "a.css" ∧
    (∀ g ∈ ((new .multi).run takeover).files, g.id ≠ 0 →
      g.name ≠ "a.css" ∧ addedName? takeover g.id ≠ some "a.css") ∧
    (PathTable.ofFiles ((new .multi).run takeover).files).find? "a.css" none =
      some ⟨"a.css", .css, .text "new"⟩ := by
  have hf : ⟨0, "b.css", some "a.css", .css, .text "new"⟩ ∈ ((new .multi).run takeover).files := by
    decide
  have hn : ∀ g ∈ ((new .multi).run takeover).files, g.id ≠ 0 → g.name ≠ "b.css" := by decide
  have ha : ∀ g ∈ ((new .multi).run takeover).files, g.id ≠ 0 →
      g.name ≠ "a.css" ∧ addedName? takeover g.id ≠ some "a.css" := by decide
  obtain ⟨hname, first, hfirst, hadded⟩ := found_under_names .multi takeover _ hf
  obtain rfl : "a.css" = first := Option.some.inj hfirst
  exact ⟨hf, hn, hname hn, hfirst, ha, hadded ha⟩

end Project
end Workbench
