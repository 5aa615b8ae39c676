import Mathlib.Data.List.Nodup
import Workbench.Project.Basic

/-!
# The numbering of files

Ids are handed out in increasing order, files are added at the end and never moved, and nothing
changes the id of a file. So along the list of files the ids increase, and the id for the next file
is beyond them all (`Numbered`). Each way in which a project changes keeps this.
-/

namespace Workbench.Project

variable {p : Project}

/-- The ids increase along the list of files and stay below the next one. -/
structure Numbered (p : Project) : Prop where
  increasing : (p.files.map File.id).Pairwise (· < ·)
  below : ∀ f ∈ p.files, f.id < p.nextId

theorem numbered_new (mode : Mode) : (new mode).Numbered := ⟨List.Pairwise.nil, by simp [new]⟩

/-- Two files of one id are one file. -/
theorem Numbered.eq_of_id_eq (h : p.Numbered) {f g : File} (hf : f ∈ p.files) (hg : g ∈ p.files)
    (hid : f.id = g.id) : f = g := by
  obtain ⟨i, hi, rfl⟩ := List.mem_iff_getElem.mp hf
  obtain ⟨j, hj, rfl⟩ := List.mem_iff_getElem.mp hg
  have hlt := List.pairwise_iff_getElem.mp h.increasing
  simp only [List.length_map, List.getElem_map] at hlt
  have hij : i = j := by
    rcases Nat.lt_trichotomy i j with hij | hij | hij
    · have := hlt i j hi hj hij
      omega
    · exact hij
    · have := hlt j i hj hi hij
      omega
  subst hij
  rfl

/-- Each id of a file is the id of one file. -/
theorem Numbered.filter_id (h : p.Numbered) {f : File} (hf : f ∈ p.files) :
    p.files.filter (fun g => g.id = f.id) = [f] := by
  have hids : (p.files.map File.id).Nodup := h.increasing.imp fun hlt => Nat.ne_of_lt hlt
  have hnodup : p.files.Nodup := hids.of_map
  have hiff : ∀ g ∈ p.files, decide (g.id = f.id) = (g == f) := fun g hg =>
    decide_eq_decide.mpr ⟨h.eq_of_id_eq hg hf, congrArg File.id⟩
  rw [List.filter_congr hiff, List.filter_beq, List.count_eq_one_of_mem hnodup hf,
    List.replicate_one]

/-- The files of a project with one more file. -/
theorem mem_add {name : String} {kind : Kind} {content : Content} {f : File} :
    f ∈ (p.add name kind content).files ↔
      f ∈ p.files ∨ f = .new p.nextId name kind content := by
  rw [Project.add, List.mem_append, List.mem_singleton]

theorem mem_of_mem_remove {id : Nat} {f : File} (hf : f ∈ (p.remove id).files) : f ∈ p.files :=
  (List.mem_filter.mp hf).1

theorem Numbered.add (h : p.Numbered) (name : String) (kind : Kind) (content : Content) :
    (p.add name kind content).Numbered := by
  refine ⟨?_, fun f hf => ?_⟩
  · simp only [Project.add, List.map_append, List.map_cons, List.map_nil, List.pairwise_append,
      List.pairwise_singleton, List.mem_map, List.mem_singleton]
    refine ⟨h.increasing, trivial, ?_⟩
    rintro i ⟨f, hf, rfl⟩ j rfl
    exact h.below f hf
  · rcases mem_add.mp hf with hf | rfl
    · exact Nat.lt_succ_of_lt (h.below f hf)
    · exact Nat.lt_succ_self _

theorem Numbered.remove (h : p.Numbered) (id : Nat) : (p.remove id).Numbered where
  increasing := h.increasing.sublist (List.filter_sublist.map File.id)
  below f hf := h.below f (mem_of_mem_remove hf)

/-- A file of a changed project is a file of the project, changed if it has the id. -/
theorem mem_update {id : Nat} {change : File → File} {f : File} :
    f ∈ (p.update id change).files ↔ ∃ g ∈ p.files, (if g.id = id then change g else g) = f :=
  List.mem_map

theorem Numbered.update (h : p.Numbered) (id : Nat) {change : File → File}
    (hc : ∀ f, (change f).id = f.id) : (p.update id change).Numbered := by
  have hid (f : File) : (if f.id = id then change f else f).id = f.id := by
    split
    · exact hc f
    · rfl
  refine ⟨?_, fun f hf => ?_⟩
  · have hm : (p.update id change).files.map File.id = p.files.map File.id := by
      rw [Project.update, List.map_map]
      exact List.map_congr_left fun f _ => hid f
    rw [hm]
    exact h.increasing
  · obtain ⟨g, hg, rfl⟩ := mem_update.mp hf
    rw [hid g]
    exact h.below g hg

theorem Numbered.setMode (h : p.Numbered) (mode : Mode) : (p.setMode mode).Numbered :=
  ⟨h.increasing, h.below⟩

theorem Numbered.apply (h : p.Numbered) (e : Edit) : (p.apply e).Numbered := by
  cases e with
  | add name kind content => exact h.add name kind content
  | remove id => exact h.remove id
  | setText id text => exact h.update id fun _ => rfl
  | rename id name => exact h.update id fun _ => rfl
  | setKind id kind => exact h.update id fun _ => rfl
  | setMode mode => exact h.setMode mode

end Workbench.Project
