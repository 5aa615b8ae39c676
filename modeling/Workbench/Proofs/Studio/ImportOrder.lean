import Mathlib.Data.List.Induction
import Workbench.Proofs.Studio.Kinds

/-!
# Importing files

Files are read one after the other, and each read succeeds or fails on its own. `Imports` tells what a
selection of files makes of the workbench in terms of the selection alone: those that can be read are
added in order, the last of them goes into the editor, the last that cannot be read is reported, and
nothing else changes. One more file keeps this (`Imports.concat`), so a whole selection has it
(`uploads_arrive_in_order`).

That the new ids come after all others needs ids below the next one, which every history provides
(`Typed.run`).
-/

namespace Workbench.Browser.Upload

/-- The file that the upload becomes under an id. -/
def file (u : Upload) (id : Nat) : File :=
  .new id u.name (File.recognise u.name u.content.text?) u.content

/-- The files that the uploads become, with ids from `first` on. -/
def files (first : Nat) (uploads : List Upload) : List File :=
  ((uploads.filter Upload.readable).zipIdx first).map fun (u, id) => u.file id

/-- What is reported of the uploads that cannot be read. -/
def failures (uploads : List Upload) : List String :=
  (uploads.filter (!·.readable)).map fun u => "Failed to read " ++ u.name

variable {u : Upload} {uploads : List Upload}

theorem read_of_readable (h : u.readable = true) : u.read = .ok u.content := if_pos h

theorem read_of_not_readable (h : u.readable = false) : u.read = .error (.unreadable u.name) :=
  if_neg (Bool.eq_false_iff.mp h)

theorem length_files (first : Nat) (uploads : List Upload) :
    (files first uploads).length = (uploads.filter Upload.readable).length := by
  rw [files, List.length_map, List.length_zipIdx]

/-- The ids are consecutive. -/
theorem map_id_files (first : Nat) (uploads : List Upload) :
    (files first uploads).map File.id = List.range' first (files first uploads).length := by
  rw [length_files, files, List.map_map]
  exact List.zipIdx_map_snd first _

/-- One more upload adds a file if it can be read, under the next id. -/
theorem files_concat (first : Nat) (uploads : List Upload) (u : Upload) :
    files first (uploads ++ [u]) = files first uploads ++
      if u.readable then [u.file (first + (files first uploads).length)] else [] := by
  rw [length_files, files, files, List.filter_append, List.filter_singleton, List.zipIdx_append,
    List.map_append]
  cases u.readable <;> rfl

/-- One more upload is reported if it cannot be read. -/
theorem failures_concat (uploads : List Upload) (u : Upload) :
    failures (uploads ++ [u]) = failures uploads ++
      if u.readable then [] else ["Failed to read " ++ u.name] := by
  rw [failures, failures, List.filter_append, List.filter_singleton, List.map_append]
  cases u.readable <;> rfl

end Workbench.Browser.Upload

namespace Workbench.Studio

open Browser

/-- What importing the uploads makes of the workbench. -/
structure Imports (uploads : List Upload) (s t : Studio) : Prop where
  /-- The files that were there stay as they are, and those that can be read follow. -/
  files_eq : t.project.files = s.project.files ++ Upload.files s.project.nextId uploads
  nextId_eq : t.project.nextId =
    s.project.nextId + (Upload.files s.project.nextId uploads).length
  /-- The last file that was added is in the editor. -/
  active?_eq : t.active? =
    ((Upload.files s.project.nextId uploads).getLast?.map File.id).or s.active?
  /-- The last failure is reported. -/
  notice?_eq : t.notice? = (Upload.failures uploads).getLast?.or s.notice?
  mode_eq : t.project.mode = s.project.mode
  preview?_eq : t.preview? = s.preview?
  console_eq : t.console = s.console

variable {s t : Studio} {uploads : List Upload}

theorem imports_nil (s : Studio) : Imports [] s s :=
  ⟨(List.append_nil _).symm, rfl, rfl, rfl, rfl, rfl, rfl⟩

theorem Imports.take (h : Imports uploads s t) {u : Upload} (hu : u.readable = true) :
    Imports (uploads ++ [u]) s (t.take u.name u.content) := by
  have hfiles := Upload.files_concat s.project.nextId uploads u
  have hfailures := Upload.failures_concat uploads u
  rw [if_pos hu] at hfiles hfailures
  refine ⟨?_, ?_, ?_, ?_, h.mode_eq, h.preview?_eq, h.console_eq⟩
  · show t.project.files ++ [u.file t.project.nextId] = _
    rw [h.files_eq, h.nextId_eq, hfiles, List.append_assoc]
  · show t.project.nextId + 1 = _
    rw [h.nextId_eq, hfiles, List.length_append, List.length_singleton, Nat.add_assoc]
  · show some t.project.nextId = _
    rw [h.nextId_eq, hfiles, List.getLast?_concat]
    rfl
  · rw [hfailures, List.append_nil]
    exact h.notice?_eq

theorem Imports.fail (h : Imports uploads s t) {u : Upload} (hu : u.readable = false) :
    Imports (uploads ++ [u]) s (t.setNotice (some ("Failed to read " ++ u.name))) := by
  have hfiles := Upload.files_concat s.project.nextId uploads u
  have hfailures := Upload.failures_concat uploads u
  rw [if_neg (Bool.eq_false_iff.mp hu)] at hfiles hfailures
  rw [List.append_nil] at hfiles
  refine ⟨?_, ?_, ?_, ?_, h.mode_eq, h.preview?_eq, h.console_eq⟩
  · rw [hfiles]
    exact h.files_eq
  · rw [hfiles]
    exact h.nextId_eq
  · rw [hfiles]
    exact h.active?_eq
  · rw [hfailures, List.getLast?_concat]
    rfl

/-- One more upload, whether it can be read or not. -/
theorem Imports.concat (h : Imports uploads s t) (u : Upload) :
    Imports (uploads ++ [u]) s (t.importOne u) := by
  unfold importOne
  cases hu : u.readable with
  | true =>
    rw [Upload.read_of_readable hu]
    exact h.take hu
  | false =>
    rw [Upload.read_of_not_readable hu]
    exact h.fail hu

theorem imports_importAll (s : Studio) (uploads : List Upload) :
    Imports uploads s (s.importAll uploads).1 := by
  show Imports uploads s (uploads.foldl importOne s)
  induction uploads using List.reverseRecOn with
  | nil => exact imports_nil s
  | append_singleton uploads u ih =>
    rw [List.foldl_append]
    exact ih.concat u

/-- Importing adds the files that can be read, in the order of the selection, under consecutive ids
after all others, and reports the last of those that cannot be read. Nothing else changes. -/
theorem uploads_arrive_in_order (h : s.project.Numbered) (uploads : List Upload) :
    Imports uploads s (s.importAll uploads).1 ∧
    (Upload.files s.project.nextId uploads).map File.id =
      List.range' s.project.nextId (Upload.files s.project.nextId uploads).length ∧
    ∀ f ∈ s.project.files, ∀ g ∈ Upload.files s.project.nextId uploads, f.id < g.id := by
  have hids := Upload.map_id_files s.project.nextId uploads
  refine ⟨imports_importAll s uploads, hids, fun f hf g hg => ?_⟩
  have hg : g.id ∈ List.range' s.project.nextId _ := hids ▸ List.mem_map_of_mem hg
  exact Nat.lt_of_lt_of_le (h.below f hf) (List.mem_range'_1.mp hg).1

/-- An image, a file that cannot be read, a module with a byte order mark in front of its text, and
another file that cannot be read. -/
def mixedSelection : List Upload :=
  [⟨"a.png", "", [0], "\x00", true⟩, ⟨"b.css", "", [], "", false⟩,
    ⟨"c.mjs", "", [239, 187, 191, 120], "x", true⟩, ⟨"d.png", "image/png", [], "", false⟩]

/-- After the last file of the new workbench was removed its id is not used again. -/
theorem uploads_arrive_in_order_mixedSelection :
    (start.run [.remove 3]).1.project.Numbered ∧
    (((start.run [.remove 3]).1.importAll mixedSelection).1.project.files.drop 3).map
        (fun f => (f.id, f.name, f.kind, f.content)) =
      [(4, "a.png", .image, .payload "AA=="), (5, "c.mjs", .moduleScript, .text "x")] ∧
    ((start.run [.remove 3]).1.importAll mixedSelection).1.active? = some 5 ∧
    ((start.run [.remove 3]).1.importAll mixedSelection).1.notice? = some "Failed to read d.png" := by
  have hn : (start.run [.remove 3]).1.project.Numbered := (typed_starter.run [.remove 3]).numbered
  obtain ⟨h, -, -⟩ := uploads_arrive_in_order hn mixedSelection
  refine ⟨hn, ?_, ?_, ?_⟩
  · rw [h.files_eq]
    decide
  · rw [h.active?_eq]
    decide
  · rw [h.notice?_eq]
    decide

end Workbench.Studio
