import Workbench.Proofs.View.Select
import Workbench.View.Basic

/-!
# What the editor shows

The tabs of the editor are its list items, one for each file in order (`selectAll_li_editor`). Of
these the tab of the file in the editor is selected (`selectAll_selected_editor`). The request to add
a file stands where the pane would be, and only while no file is in the editor
(`request_mem_editor_iff`).
-/

namespace Workbench.View

open Node

variable {ok : String → List (String × Value) → Bool}

/-- What stands beside the sidebar. -/
def paneOf (s : Studio) : Node :=
  match s.active? with
  | some id => pane s.project id
  | none => noPane

/-- The elements of the sidebar other than the tabs, by tag and attributes. -/
def sidebarFrame : List (String × List (String × Value)) :=
  [("section", [("class", .text "editor")]), ("nav", [("class", .text "sidebar")]),
    ("ul", [("class", .text "fileList")]), ("form", [("class", .text "newFile")]),
    ("input", [("type", .text "text"), ("class", .text "nameInput"),
      ("placeholder", .text "new-file.js"), ("spellcheck", .text "false")]),
    ("button", [("type", .text "submit"), ("class", .text "iconButton"),
      ("aria-label", .text "Add file")]),
    ("label", [("class", .text "import")]), ("span", []),
    ("input", [("type", .text "file"), ("multiple", .present), ("class", .text "hiddenInput")])]

/-- What a test selects that the sidebar does not pass comes from the tabs and from the pane. -/
theorem selectAll_editor (s : Studio) (hframe : ∀ e ∈ sidebarFrame, ok e.1 e.2 = false) :
    selectAll ok (editor s) =
      (s.project.files.flatMap fun f => (tab s.active? f).select ok) ++ (paneOf s).select ok := by
  have hf := hframe
  simp only [sidebarFrame, List.forall_mem_cons, List.not_mem_nil, false_implies,
    implies_true, and_true] at hf
  obtain ⟨hsection, hnav, hul, hform, hname, hadd, hlabel, hspan, hfiles⟩ := hf
  have he : editor s = [tag "section" [("class", "editor")] [
      tag "nav" [("class", "sidebar")] [
        tag "ul" [("class", "fileList")] (s.project.files.map (tab s.active?)), addForm,
        importLabel],
      paneOf s]] := rfl
  simp only [he, addForm, importLabel, tag, selectAll, select, List.map_cons, List.map_nil,
    hsection, hnav, hul, hform, hname, hadd, hlabel, hspan, hfiles, selectAll_map]
  simp

/-! ## Tabs -/

/-- The class of a tab. -/
def tabClass (active? : Option Nat) (f : File) : String :=
  if active? = some f.id then "tab selected" else "tab"

theorem select_tab (active? : Option Nat) (f : File)
    (hicon : ok "span" [("class", .text "tabIcon")] = false)
    (hname : ok "span" [("class", .text "tabName"), ("title", .text f.kind.name)] = false)
    (hclose : ok "button" [("class", .text "iconButton"),
      ("aria-label", .text "Remove file")] = false) :
    (tab active? f).select ok =
      if ok "li" [("class", .text (tabClass active? f))] then [tab active? f] else [] := by
  unfold tab tag tabClass
  simp [select, selectAll, hicon, hname, hclose]

theorem attribute?_tab (active? : Option Nat) (f : File) :
    (tab active? f).attribute? "class" = some (.text (tabClass active? f)) :=
  rfl

theorem shownText_tab (active? : Option Nat) (f : File) : (tab active? f).shownText = f.name := by
  unfold tab tag
  simp [shownText, shownTexts]

/-- The elements of a pane and of what stands in place of one, by tag and attributes. -/
def paneFrame : List (String × List (String × Value)) :=
  [("div", [("class", .text "pane")]), ("div", [("class", .text "paneHeader")]),
    ("input", [("type", .text "text"), ("class", .text "nameInput"),
      ("spellcheck", .text "false")]),
    ("span", [("class", .text "badge")]), ("div", [("class", .text "empty")]),
    ("textarea", [("class", .text "textarea"), ("spellcheck", .text "false"),
      ("autocomplete", .text "off")])]

theorem select_paneOf (s : Studio) (hframe : ∀ e ∈ paneFrame, ok e.1 e.2 = false) :
    (paneOf s).select ok = [] := by
  have hf := hframe
  simp only [paneFrame, List.forall_mem_cons, List.not_mem_nil, false_implies,
    implies_true, and_true] at hf
  obtain ⟨hpane, hheader, hname, hbadge, hempty, harea⟩ := hf
  unfold paneOf
  split
  · unfold pane tag
    dsimp only
    split <;> simp [select, selectAll, hpane, hheader, hname, hbadge, hempty, harea]
  · simp [noPane, tag, select, selectAll, hempty]

/-- There is a tab for each file, in the order of the files. -/
theorem selectAll_li_editor (s : Studio) :
    selectAll (ofTag "li") (editor s) = s.project.files.map (tab s.active?) := by
  have htab (f : File) : (tab s.active? f).select (ofTag "li") = [tab s.active? f] :=
    select_tab s.active? f rfl rfl rfl
  rw [selectAll_editor s (by decide), select_paneOf s (by decide), List.append_nil]
  simp only [htab]
  exact (List.map_eq_flatMap (f := tab s.active?) (l := s.project.files)).symm

/-- The tab of the file in the editor is selected, and no other element. -/
theorem selectAll_selected_editor (s : Studio) :
    selectAll (ofClass "tab selected") (editor s) =
      (s.project.files.filter fun f => s.active? = some f.id).map (tab s.active?) := by
  have htab (f : File) : (tab s.active? f).select (ofClass "tab selected") =
      if s.active? = some f.id then [tab s.active? f] else [] := by
    rw [select_tab s.active? f rfl rfl rfl, tabClass]
    by_cases hf : s.active? = some f.id <;> simp [hf, ofClass]
  rw [selectAll_editor s (by decide), select_paneOf s (by decide), List.append_nil]
  simp only [htab]
  induction s.project.files with
  | nil => rfl
  | cons f files ih =>
    rw [List.flatMap_cons, ih]
    by_cases hf : s.active? = some f.id
    · rw [if_pos hf, List.filter_cons_of_pos (by simpa using hf)]
      rfl
    · rw [if_neg hf, List.filter_cons_of_neg (by simpa using hf)]
      rfl

/-! ## The pane -/

/-- The request that stands in place of a pane. -/
def request : String := "Add a file to get started."

/-- The user is asked for a file exactly while none is in the editor. -/
theorem request_mem_editor_iff (s : Studio) :
    request ∈ (selectAll (ofClass "empty") (editor s)).map shownText ↔ s.active? = none := by
  have htabs : (s.project.files.flatMap fun f => (tab s.active? f).select (ofClass "empty")) = [] :=
    List.flatMap_eq_nil_iff.mpr fun f _ => by
      rw [select_tab s.active? f rfl rfl rfl, tabClass]
      split <;> rfl
  rw [selectAll_editor s (by decide), htabs, List.nil_append, paneOf]
  cases s.active? with
  | none => simp [noPane, tag, select, selectAll, ofClass, shownText, shownTexts, request]
  | some id =>
    refine iff_of_false ?_ (Option.some_ne_none id)
    unfold pane tag
    dsimp only
    split <;> simp [select, selectAll, ofClass, shownText, shownTexts, request]

end Workbench.View
