import Workbench.Proofs.Project.FirstName

/-!
# The life of each file

A history of a project is a history of each of its files apart from the others. A file is added with
an id that no file had before; from then on only the changes that name this id do something to it
(`File.change?`), until one of them removes it.

* `files_run`: after any history the files are those that it added, each followed through the
  changes behind its addition, in the order of the additions and without the removed ones. No other
  file has a part in what becomes of a file.
* `newIds_eq`: the ids of the added files are consecutive numbers, so none is given twice.
* `Numbered.replacesFile_remove`, `Numbered.replacesFile_update`: one change reaches one file.

`files_keep_identity` puts them together for histories of a new project.
-/

namespace Workbench

open Project (Edit)

/-- What a change of the project makes of a file, and nothing if it removes the file. -/
def File.change? (f : File) : Edit → Option File
  | .add _ _ _ => some f
  | .remove id => if f.id = id then none else some f
  | .setText id text => some (if f.id = id then { f with content := .text text } else f)
  | .rename id name => some (if f.id = id then f.rename name else f)
  | .setKind id kind => some (if f.id = id then { f with kind := kind } else f)
  | .setMode _ => some f

/-- What a history of the project makes of a file, and nothing once the file is removed. -/
def File.follow? (f : File) : List Edit → Option File
  | [] => some f
  | e :: history => (f.change? e).bind fun g => g.follow? history

namespace Project

variable {p : Project}

/-- The file that a change adds under this id. -/
def Edit.added (id : Nat) : Edit → List File
  | .add name kind content => [.new id name kind content]
  | _ => []

/-- The change gives a new name to the file with this id. -/
def Edit.renames (id : Nat) : Edit → Bool
  | .rename i _ => i == id
  | _ => false

/-- The files that a history adds, with ids from `id` on, each with the changes that follow its
addition. -/
def additions (id : Nat) : List Edit → List (File × List Edit)
  | [] => []
  | e :: history =>
    (e.added id).map (·, history) ++ additions (id + (e.added id).length) history

/-- The ids that a history gives to files: each time the next id of the project as it is then. -/
def newIds (p : Project) : List Edit → List Nat
  | [] => []
  | e :: history => (e.added p.nextId).map File.id ++ newIds (p.apply e) history

/-! ## Every file by itself -/

theorem nextId_apply (p : Project) (e : Edit) :
    (p.apply e).nextId = p.nextId + (e.added p.nextId).length := by
  cases e <;> rfl

theorem files_update (p : Project) (id : Nat) (change : File → File) :
    (p.update id change).files =
      p.files.filterMap fun f => some (if f.id = id then change f else f) := by
  rw [Project.update, List.filterMap_eq_map']

theorem files_remove (p : Project) (id : Nat) :
    (p.remove id).files = p.files.filterMap fun f => if f.id = id then none else some f := by
  rw [Project.remove, ← List.filterMap_eq_filter]
  refine List.filterMap_congr fun f _ => ?_
  by_cases h : f.id = id <;> simp [h]

/-- A change reaches every file by itself, and adds at most one at the end. -/
theorem files_apply (p : Project) (e : Edit) :
    (p.apply e).files = p.files.filterMap (·.change? e) ++ e.added p.nextId := by
  cases e with
  | add name kind content => exact congrArg (· ++ _) List.filterMap_some.symm
  | remove id => exact (files_remove p id).trans (List.append_nil _).symm
  | setText id text => exact (files_update p id _).trans (List.append_nil _).symm
  | rename id name => exact (files_update p id _).trans (List.append_nil _).symm
  | setKind id kind => exact (files_update p id _).trans (List.append_nil _).symm
  | setMode mode => exact List.filterMap_some.symm.trans (List.append_nil _).symm

/-- The files after a history are the files before it and those that it added, each followed through
the changes that came after it. -/
theorem files_run (history : List Edit) (p : Project) :
    (p.run history).files = p.files.filterMap (·.follow? history) ++
      (additions p.nextId history).filterMap fun a => a.1.follow? a.2 := by
  induction history generalizing p with
  | nil => simp [Project.run, additions, File.follow?]
  | cons e history ih =>
    have hold : p.files.filterMap (·.follow? (e :: history)) =
        (p.files.filterMap (·.change? e)).filterMap (·.follow? history) := by
      rw [List.filterMap_filterMap]
      rfl
    have hnew : (e.added p.nextId).filterMap (·.follow? history) =
        ((e.added p.nextId).map (·, history)).filterMap fun a => a.1.follow? a.2 := by
      rw [List.filterMap_map]
      rfl
    calc ((p.apply e).run history).files
      _ = (p.files.filterMap (·.change? e) ++ e.added p.nextId).filterMap (·.follow? history) ++
          (additions (p.apply e).nextId history).filterMap fun a => a.1.follow? a.2 := by
        rw [ih, files_apply]
      _ = _ := by
        rw [hold, nextId_apply, additions, List.filterMap_append, List.filterMap_append, hnew,
          List.append_assoc]

/-! ## What becomes of a file -/

theorem id_of_change? {f g : File} {e : Edit} (h : f.change? e = some g) : g.id = f.id := by
  cases e <;> grind [File.change?, File.rename]

theorem change?_eq_none_iff {f : File} {e : Edit} : f.change? e = none ↔ e = .remove f.id := by
  cases e <;> simp [File.change?, eq_comm]

theorem id_of_follow? {f g : File} {history : List Edit} (h : f.follow? history = some g) :
    g.id = f.id := by
  induction history generalizing f with
  | nil => exact congrArg File.id (Option.some.inj h).symm
  | cons e history ih =>
    obtain ⟨f', hf, hg⟩ := Option.bind_eq_some_iff.mp h
    exact (ih hg).trans (id_of_change? hf)

/-- A file is gone exactly when one of the changes removed it. -/
theorem follow?_eq_none_iff {f : File} {history : List Edit} :
    f.follow? history = none ↔ .remove f.id ∈ history := by
  induction history generalizing f with
  | nil => simp [File.follow?]
  | cons e history ih =>
    rw [File.follow?, Option.bind_eq_none_iff, List.mem_cons]
    cases hf : f.change? e with
    | none => simp [change?_eq_none_iff.mp hf]
    | some g =>
      have hne : e ≠ .remove f.id := fun he => by simp [change?_eq_none_iff.mpr he] at hf
      simp [ih, id_of_change? hf, hne.symm]

theorem firstName_of_change? {f g : File} {e : Edit} (h : f.change? e = some g) :
    g.firstName = f.firstName := by
  cases e <;> grind [File.change?, File.firstName, File.rename]

theorem firstName?_of_change? {f g : File} {e : Edit} (h : f.change? e = some g) :
    g.firstName? = if e.renames f.id then some f.firstName else f.firstName? := by
  cases e <;> grind [File.change?, File.firstName, File.rename, Edit.renames]

/-- A file remembers its first name as soon as one of the changes renamed it, and not before. -/
theorem firstName?_of_follow? {f g : File} {history : List Edit}
    (h : f.follow? history = some g) :
    g.firstName? =
      if history.any (·.renames f.id) then some f.firstName else f.firstName? := by
  induction history generalizing f with
  | nil => rw [← Option.some.inj h]; rfl
  | cons e history ih =>
    obtain ⟨f', hf, hg⟩ := Option.bind_eq_some_iff.mp h
    rw [ih hg, id_of_change? hf, firstName_of_change? hf, firstName?_of_change? hf, List.any_cons]
    cases e.renames f.id <;> cases history.any (·.renames f.id) <;> rfl

/-! ## Ids -/

theorem newIds_eq (history : List Edit) (p : Project) :
    newIds p history = (additions p.nextId history).map fun a => a.1.id := by
  induction history generalizing p with
  | nil => rfl
  | cons e history ih =>
    rw [newIds, additions, ih, nextId_apply, List.map_append, List.map_map]
    rfl

/-- Added files are numbered without a gap. -/
theorem ids_additions (history : List Edit) (id : Nat) :
    (additions id history).map (fun a => a.1.id) =
      List.range' id (additions id history).length := by
  induction history generalizing id with
  | nil => rfl
  | cons e history ih =>
    have he : (e.added id).map File.id = List.range' id (e.added id).length := by
      cases e <;> rfl
    rw [additions, List.map_append, ih, List.map_map, List.length_append, List.length_map,
      ← List.range'_append_1, ← he]
    rfl

/-- No id is given twice, also not the id of a file that is gone. -/
theorem newIds_increase (p : Project) (history : List Edit) :
    (newIds p history).Pairwise (· < ·) := by
  rw [newIds_eq, ids_additions]
  exact List.pairwise_lt_range'

/-! ## One change, one file -/

/-- The second project is the first one with others in place of the file with this id, if there is
such a file. -/
structure ReplacesFile (p q : Project) (id : Nat) (others : File → List File) : Prop where
  of_unknown : (∀ f ∈ p.files, f.id ≠ id) → q = p
  of_file : ∀ before f after, p.files = before ++ f :: after → f.id = id →
    q = { p with files := before ++ others f ++ after }

/-- The files around a file have other ids. -/
theorem Numbered.id_ne (h : p.Numbered) {before after : List File} {f : File}
    (hp : p.files = before ++ f :: after) :
    (∀ g ∈ before, g.id ≠ f.id) ∧ ∀ g ∈ after, g.id ≠ f.id := by
  have hi := h.increasing
  rw [hp, List.map_append, List.map_cons, List.pairwise_append, List.pairwise_cons] at hi
  obtain ⟨-, ⟨hafter, -⟩, hbefore⟩ := hi
  refine ⟨fun g hg => ?_, fun g hg => ?_⟩
  · exact Nat.ne_of_lt (hbefore g.id (List.mem_map_of_mem hg) f.id List.mem_cons_self)
  · exact Nat.ne_of_gt (hafter g.id (List.mem_map_of_mem hg))

theorem Numbered.replacesFile_remove (h : p.Numbered) (id : Nat) :
    ReplacesFile p (p.remove id) id fun _ => [] where
  of_unknown hn := by
    have hf : p.files.filter (·.id != id) = p.files :=
      List.filter_eq_self.mpr fun f hf => bne_iff_ne.mpr (hn f hf)
    rw [Project.remove, hf]
  of_file before f after hp hid := by
    subst hid
    obtain ⟨hbefore, hafter⟩ := h.id_ne hp
    have hb : before.filter (·.id != f.id) = before :=
      List.filter_eq_self.mpr fun g hg => bne_iff_ne.mpr (hbefore g hg)
    have ha : after.filter (·.id != f.id) = after :=
      List.filter_eq_self.mpr fun g hg => bne_iff_ne.mpr (hafter g hg)
    rw [Project.remove, hp, List.filter_append, List.filter_cons, hb, ha]
    simp

theorem Numbered.replacesFile_update (h : p.Numbered) (id : Nat) (change : File → File) :
    ReplacesFile p (p.update id change) id fun f => [change f] where
  of_unknown hn := by
    have hf : p.files.map (fun f => if f.id = id then change f else f) = p.files :=
      (List.map_congr_left fun f hf => if_neg (hn f hf)).trans (List.map_id _)
    rw [Project.update, hf]
  of_file before f after hp hid := by
    subst hid
    obtain ⟨hbefore, hafter⟩ := h.id_ne hp
    have hb : before.map (fun g => if g.id = f.id then change g else g) = before :=
      (List.map_congr_left fun g hg => if_neg (hbefore g hg)).trans (List.map_id _)
    have ha : after.map (fun g => if g.id = f.id then change g else g) = after :=
      (List.map_congr_left fun g hg => if_neg (hafter g hg)).trans (List.map_id _)
    rw [Project.update, hp, List.map_append, List.map_cons, hb, ha, if_pos rfl]
    simp

theorem has_iff {id : Nat} : p.has id = true ↔ ∃ f ∈ p.files, f.id = id := by
  simp [Project.has]

/-- Removing a file leaves fewer files exactly when there is one with the id. -/
theorem length_remove_ne_iff {id : Nat} :
    (p.remove id).files.length ≠ p.files.length ↔ ∃ f ∈ p.files, f.id = id := by
  rw [Project.remove, ne_eq, List.length_filter_eq_length_iff]
  simp

/-! ## Histories of a new project -/

/-- How files keep their identity through a history of a new project. -/
structure KeepsIdentity (mode : Mode) (history : List Edit) : Prop where
  ids_increase : (((new mode).run history).files.map File.id).Pairwise (· < ·)
  newIds_increase : (newIds (new mode) history).Pairwise (· < ·)
  /-- The files are the added ones, in order, without those of which nothing is left. -/
  files_eq : ((new mode).run history).files =
    (additions 0 history).filterMap fun a => a.1.follow? a.2
  additions_id : (additions 0 history).map (fun a => a.1.id) = newIds (new mode) history
  removed_iff : ∀ a ∈ additions 0 history, a.1.follow? a.2 = none ↔ .remove a.1.id ∈ a.2
  /-- A file that is left has its id still, and remembers the name it was added under if and only
  if it was renamed. -/
  remembers : ∀ a ∈ additions 0 history, ∀ f, a.1.follow? a.2 = some f → f.id = a.1.id ∧
    f.firstName? = if a.2.any (·.renames a.1.id) then some a.1.name else none
  /-- The answer to a removal, told by the list of files or by its length. -/
  has_iff : ∀ id, ((new mode).run history).has id = true ↔
    ∃ f ∈ ((new mode).run history).files, f.id = id
  shrinks_iff : ∀ id, (((new mode).run history).remove id).files.length ≠
    ((new mode).run history).files.length ↔ ∃ f ∈ ((new mode).run history).files, f.id = id
  remove : ∀ id, ReplacesFile ((new mode).run history) (((new mode).run history).remove id) id
    fun _ => []
  setText : ∀ id text, ReplacesFile ((new mode).run history)
    (((new mode).run history).setText id text) id fun f => [{ f with content := .text text }]
  rename : ∀ id name, ReplacesFile ((new mode).run history)
    (((new mode).run history).rename id name) id fun f =>
      [{ f with name := name, firstName? := some (f.firstName?.getD f.name) }]
  setKind : ∀ id kind, ReplacesFile ((new mode).run history)
    (((new mode).run history).setKind id kind) id fun f => [{ f with kind := kind }]

theorem firstName?_of_mem_additions {a : File × List Edit} {history : List Edit} {id : Nat}
    (h : a ∈ additions id history) : a.1.firstName? = none := by
  induction history generalizing id with
  | nil => exact absurd h List.not_mem_nil
  | cons e history ih =>
    rcases List.mem_append.mp h with h | h
    · obtain ⟨f, hf, rfl⟩ := List.mem_map.mp h
      cases e <;> simp_all [Edit.added, File.new]
    · exact ih h

/-- Through every history of a new project the ids increase along the list of files, and no id is
given twice. The files are the added ones in the order of their addition, without the removed ones;
each of them is changed by the changes that name its id, and by no others. -/
theorem files_keep_identity (mode : Mode) (history : List Edit) : KeepsIdentity mode history where
  ids_increase := (recalls_run mode history).numbered.increasing
  newIds_increase := Project.newIds_increase (new mode) history
  files_eq := files_run history (new mode)
  additions_id := (newIds_eq history (new mode)).symm
  removed_iff _ _ := follow?_eq_none_iff
  remembers a ha f hf := by
    have hn := firstName?_of_mem_additions ha
    refine ⟨id_of_follow? hf, ?_⟩
    rw [firstName?_of_follow? hf, File.firstName, hn, Option.getD_none]
  has_iff _ := Project.has_iff
  shrinks_iff _ := length_remove_ne_iff
  remove id := (recalls_run mode history).numbered.replacesFile_remove id
  setText id _ := (recalls_run mode history).numbered.replacesFile_update id _
  rename id _ := (recalls_run mode history).numbered.replacesFile_update id _
  setKind id _ := (recalls_run mode history).numbered.replacesFile_update id _

end Project
end Workbench
