import Workbench.Proofs.Studio.Kinds
import Workbench.Proofs.View.Editor

/-!
# The file in the editor

The id of the file in the editor and the list of files are separate parts of the state, and each
action that adds or removes files has to keep them in step (`InStep`): the file in the editor is one
of the project, and there is none only while the project has no files. The one action that could
break this is to open an id that no file has, so the histories here do not (`OpensFiles`).

`active_file_exists` draws the conclusion for histories of the new and of the bare workbench, and
for what the editor then shows. Exactly one tab is selected because ids are not used twice.
-/

namespace Workbench.Studio

open Browser View

/-- A file is in the editor unless the project has none, and it is one of the project. -/
structure InStep (s : Studio) : Prop where
  files_eq_nil : s.active? = none → s.project.files = []
  exists_file : ∀ id, s.active? = some id → ∃ f ∈ s.project.files, f.id = id

/-- If the action opens an id, a file has it. -/
def Action.OpensFile (s : Studio) : Action → Prop
  | .activate id => ∃ f ∈ s.project.files, f.id = id
  | _ => True

/-- Whenever the history opens an id, a file has it at that moment. -/
def OpensFiles : Studio × Tabs → List Action → Prop
  | _, [] => True
  | s, a :: history => a.OpensFile s.1 ∧ OpensFiles (act s a) history

variable {s t : Studio}

/-! ## What the actions do to the file in the editor -/

theorem InStep.congr (h : s.InStep) (hf : t.project.files = s.project.files)
    (ha : t.active? = s.active?) : t.InStep where
  files_eq_nil ht := hf.trans (h.files_eq_nil (ha ▸ ht))
  exists_file id ht := hf ▸ h.exists_file id (ha ▸ ht)

/-- A file that is added is in the editor, whatever was there before. -/
theorem inStep_place (s : Studio) (name : String) (kind : Kind) (content : Content) :
    (s.place name kind content).InStep where
  files_eq_nil h := absurd h (Option.some_ne_none _)
  exists_file id h := by
    obtain rfl : s.project.nextId = id := Option.some.inj h
    exact ⟨.new _ name kind content, Project.mem_add.mpr (.inr rfl), rfl⟩

theorem InStep.remove (h : s.InStep) (id : Nat) : (s.remove id).InStep := by
  by_cases hid : s.active? = some id
  · -- The first of the remaining files takes the place of the one that goes.
    have ha : (s.remove id).active? = (s.remove id).project.files.head?.map File.id := if_pos hid
    cases hf : (s.remove id).project.files with
    | nil => exact ⟨fun _ => hf, fun i hi => by simp [ha, hf] at hi⟩
    | cons f files =>
      rw [hf] at ha
      refine ⟨fun hn => absurd (ha.symm.trans hn) (Option.some_ne_none _), fun i hi => ?_⟩
      obtain rfl : f.id = i := Option.some.inj (ha.symm.trans hi)
      exact ⟨f, hf ▸ List.mem_cons_self, rfl⟩
  · -- The file in the editor is another one, so it is still there.
    have ha : (s.remove id).active? = s.active? := if_neg hid
    refine ⟨fun hn => ?_, fun i hi => ?_⟩
    · show s.project.files.filter (·.id != id) = []
      rw [h.files_eq_nil (ha ▸ hn), List.filter_nil]
    · obtain ⟨f, hf, rfl⟩ := h.exists_file i (ha ▸ hi)
      have hne : f.id ≠ id := fun he => hid (he ▸ ha ▸ hi)
      exact ⟨f, List.mem_filter.mpr ⟨hf, bne_iff_ne.mpr hne⟩, rfl⟩

theorem InStep.update (h : s.InStep) (id : Nat) {change : File → File}
    (hid : ∀ f, (change f).id = f.id) :
    InStep { s with project := s.project.update id change } where
  files_eq_nil hn := List.map_eq_nil_iff.mpr (h.files_eq_nil hn)
  exists_file i hi := by
    obtain ⟨f, hf, rfl⟩ := h.exists_file i hi
    refine ⟨_, Project.mem_update.mpr ⟨f, hf, rfl⟩, ?_⟩
    split
    · exact hid f
    · rfl

theorem InStep.act {s : Studio × Tabs} (h : s.1.InStep) {a : Action} (ha : a.OpensFile s.1) :
    (act s a).1.InStep := by
  cases a with
  | add name =>
    simp only [Studio.act, Studio.add]
    split
    · exact h
    · exact inStep_place s.1 _ _ _
  | take name content => exact inStep_place s.1 _ _ _
  | importAll uploads =>
    exact importAll_induction h (fun t _ _ _ => inStep_place t _ _ _)
      (fun _ _ ht => ht.congr rfl rfl) uploads
  | remove id => exact h.remove id
  | edit id text => exact h.update id fun _ => rfl
  | rename id name =>
    simp only [Studio.act, Studio.rename]
    split
    · exact h
    · exact h.update id (id_renameAs · _)
  | activate id => exact ⟨fun hn => absurd hn (Option.some_ne_none id), fun i hi => by
      obtain rfl : id = i := Option.some.inj hi
      exact ha⟩
  | renderInTab b =>
    obtain ⟨notice?, hn⟩ := exists_renderInTab_eq s.1 b s.2
    show (s.1.renderInTab b s.2).1.InStep
    rw [hn]
    exact h.congr rfl rfl
  | receive fromPage data =>
    simp only [Studio.act, Studio.receive]
    split
    · exact h.congr rfl rfl
    · exact h
  | setMode _ | render | hidePreview | setNotice _ | clearConsole => exact h.congr rfl rfl

theorem InStep.foldl_act {history : List Action} :
    ∀ {s : Studio × Tabs}, s.1.InStep → OpensFiles s history →
      (history.foldl Studio.act s).1.InStep := by
  induction history with
  | nil => exact fun h _ => h
  | cons a history ih => exact fun h ho => ih (h.act ho.1) ho.2

/-! ## What the editor shows -/

/-- The editor shows the files of the project, and which of them is in the editor. -/
structure ShowsFiles (s : Studio) : Prop where
  request_iff : "Add a file to get started." ∈
    (selectAll (ofClass "empty") (editor s)).map Node.shownText ↔ s.project.files = []
  tabs_eq : (selectAll (ofTag "li") (editor s)).map
      (fun n => (n.shownText, n.attribute? "class")) =
    s.project.files.map fun f => (f.name,
      some (.text (if s.active? = some f.id then "tab selected" else "tab")))
  selected_length : (selectAll (ofClass "tab selected") (editor s)).length =
    if s.project.files = [] then 0 else 1

theorem InStep.active?_eq_none_iff (h : s.InStep) : s.active? = none ↔ s.project.files = [] := by
  refine ⟨h.files_eq_nil, fun hf => ?_⟩
  cases ha : s.active? with
  | none => rfl
  | some id =>
    obtain ⟨f, hm, -⟩ := h.exists_file id ha
    exact absurd (hf ▸ hm) List.not_mem_nil

theorem InStep.showsFiles (h : s.InStep) (hn : s.project.Numbered) : s.ShowsFiles where
  request_iff := (request_mem_editor_iff s).trans h.active?_eq_none_iff
  tabs_eq := by
    rw [selectAll_li_editor, List.map_map]
    refine List.map_congr_left fun f _ => ?_
    rw [Function.comp_apply, attribute?_tab, shownText_tab, tabClass]
  selected_length := by
    rw [selectAll_selected_editor, List.length_map]
    cases ha : s.active? with
    | none => simp [h.files_eq_nil ha]
    | some id =>
      obtain ⟨f, hf, rfl⟩ := h.exists_file id ha
      simp only [Option.some.injEq, eq_comm (a := f.id), hn.filter_id hf]
      rw [if_neg (List.ne_nil_of_mem hf), List.length_singleton]

/-- Throughout every history of the new or of the bare workbench that opens files only while they
exist, no file is in the editor exactly when the project has no files, and otherwise it is a file of
the project; and this is what the editor shows. -/
theorem active_file_exists (s : Studio) (hs : s = start ∨ s = bare) (history : List Action)
    (h : OpensFiles (s, Tabs.start) history) :
    ((s.run history).1.active? = none ↔ (s.run history).1.project.files = []) ∧
    (∀ id, (s.run history).1.active? = some id →
      ∃ f ∈ (s.run history).1.project.files, f.id = id) ∧
    (s.run history).1.ShowsFiles := by
  have h₀ : s.InStep ∧ Typed (fun _ => False) s.project := by
    rcases hs with rfl | rfl
    · refine ⟨⟨fun hn => absurd hn (Option.some_ne_none 0), fun id hid => ?_⟩, typed_starter⟩
      obtain rfl : 0 = id := Option.some.inj hid
      exact ⟨.new 0 "index.html" .html (.text Project.starterPage), List.mem_cons_self, rfl⟩
    · exact ⟨⟨fun _ => rfl, fun id hid => absurd hid.symm (Option.some_ne_none id)⟩,
        typed_ofTexts default (List.forall_mem_nil _)⟩
  have hi : (s.run history).1.InStep := h₀.1.foldl_act h
  exact ⟨hi.active?_eq_none_iff, hi.exists_file, hi.showsFiles (h₀.2.run history).numbered⟩

/-- The file in the editor is removed twice, a file cannot be read and a name is blank. -/
def reopened : List Action :=
  [.activate 2, .remove 2, .importAll [⟨"a.png", "", [], "", false⟩], .remove 0, .add " "]

theorem active_file_exists_reopened :
    OpensFiles (start, Tabs.start) reopened ∧
    (start.run reopened).1.active? = some 1 ∧
    (∃ f ∈ (start.run reopened).1.project.files, f.id = 1) ∧
    (selectAll (ofTag "li") (editor (start.run reopened).1)).map
        (fun n => (n.shownText, n.attribute? "class")) =
      [("style.css", some (.text "tab selected")), ("script.js", some (.text "tab"))] := by
  have ho : OpensFiles (start, Tabs.start) reopened :=
    ⟨⟨.new 2 "utils.mjs" .moduleScript (.text Project.starterModule), by decide, rfl⟩,
      trivial, trivial, trivial, trivial, trivial⟩
  obtain ⟨-, hfile, hshows⟩ := active_file_exists start (.inl rfl) reopened ho
  have ha : (start.run reopened).1.active? = some 1 := by decide
  refine ⟨ho, ha, hfile 1 ha, ?_⟩
  rw [hshows.tabs_eq]
  decide

end Workbench.Studio
