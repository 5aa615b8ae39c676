import Mathlib.Data.List.Forall2
import Workbench.Proofs.Page.Rearranged

/-!
# What a page hides

A page shows the bytes of assets and the texts of the files that have a section. All other contents
are hidden: an inert file is in the table of paths like any other, and a reference may lead to it,
but no reference is replaced by it; and a file of bytes that is no asset has no text.

`File.shown` takes the hidden content out of a file. The table of the files so treated is the table
of the files, its entries treated in the same way (`PathTable.ofFiles_map_shown`), and every path
leads to the same asset, so the page is the same (`ofFiles_map_shown`). Hence two lists of files that
differ in hidden contents only make one page (`ofFiles_eq_of_sameButHidden`).
-/

namespace Workbench

/-- What a page can show of the content of a file with this role. -/
def Content.shown (c : Content) : Role → Content
  | .asset => c
  | .inert => .text ""
  | _ => .text (c.text?.getD "")

/-- The file without what no page shows of it. -/
def File.shown (f : File) : File := { f with content := f.content.shown f.role }

/-- The two files differ at most in what a page hides: the content of an inert file, and the bytes of
a file that is no asset. -/
structure File.SameButHidden (f g : File) : Prop where
  eq_but_content : g = { f with content := g.content }
  content : f.content = g.content ∨ f.role = .inert ∨
    f.role ≠ .asset ∧ f.content.isPayload = true ∧ g.content.isPayload = true

namespace Content

variable {c c' : Content} {role : Role}

/-- Of bytes nothing is shown unless they are an asset. -/
theorem shown_of_isPayload (hr : role ≠ .asset) (h : c.isPayload = true) :
    c.shown role = .text "" := by
  cases c with
  | text s => cases h
  | payload s =>
    cases role with
    | asset => exact absurd rfl hr
    | _ => rfl

end Content

namespace File

variable {f g : File}

theorem text_shown (h : f.role ≠ .inert) : f.shown.text = f.text := by
  unfold File.text shown Content.shown
  cases hr : f.role with
  | inert => exact absurd hr h
  | _ => rfl

theorem SameButHidden.shown_eq (h : SameButHidden f g) : f.shown = g.shown := by
  obtain ⟨hg, hc⟩ := h
  have hrole : g.role = f.role := by rw [hg]; rfl
  have hshown : f.content.shown f.role = g.content.shown f.role := by
    rcases hc with hc | hc | ⟨hr, hf, hg⟩
    · rw [hc]
    · rw [hc]
      rfl
    · rw [Content.shown_of_isPayload hr hf, Content.shown_of_isPayload hr hg]
  rw [shown, shown, hrole, ← hshown, hg]

end File

/-! ## The table of paths -/

namespace PathTable

/-- The entry without what no page shows of it. -/
def Entry.shown (e : Entry) : Entry := { e with content := e.content.shown e.kind.role }

/-- The table without what no page shows of its entries. -/
def shown (t : PathTable) : PathTable := ⟨t.entries.map Entry.shown⟩

variable (t : PathTable) (e : Entry) (path : String)

theorem insertEntry_map_shown (l : List Entry) :
    insertEntry e.shown (l.map Entry.shown) = (insertEntry e l).map Entry.shown := by
  induction l with
  | nil => rfl
  | cons f rest ih =>
    have hf : f.shown.path = e.shown.path ↔ f.path = e.path := Iff.rfl
    rw [List.map_cons, insertEntry, insertEntry]
    by_cases h : f.path = e.path
    · rw [if_pos h, if_pos (hf.mpr h), List.map_cons]
    · rw [if_neg h, if_neg (mt hf.mp h), ih, List.map_cons]

theorem insert_shown : t.shown.insert e.shown = (t.insert e).shown :=
  congrArg PathTable.mk (insertEntry_map_shown e t.entries)

theorem contains_shown : t.shown.contains path = t.contains path := by
  unfold contains shown
  rw [List.any_map]
  rfl

theorem insertNew_shown : t.shown.insertNew e.shown = (t.insertNew e).shown := by
  unfold insertNew
  rw [insert_shown, show e.shown.path = e.path from rfl, contains_shown]
  split <;> rfl

/-- What is put in one after the other can be treated before or afterwards. -/
theorem foldl_shown {step : PathTable → Entry → PathTable}
    (hs : ∀ t e, step (shown t) e.shown = shown (step t e)) (es : List Entry) (t : PathTable) :
    (es.map Entry.shown).foldl step t.shown = (es.foldl step t).shown := by
  induction es generalizing t with
  | nil => rfl
  | cons e es ih => rw [List.map_cons, List.foldl_cons, hs, ih, List.foldl_cons]

theorem ofRenamed?_shown (f : File) :
    Entry.ofRenamed? f.shown = (Entry.ofRenamed? f).map Entry.shown := by
  have hfirst : f.shown.firstName? = f.firstName? := rfl
  have hname : f.shown.name = f.name := rfl
  unfold Entry.ofRenamed?
  rw [hfirst, hname]
  cases f.firstName? with
  | none => rfl
  | some first =>
    show (if first = f.name then none else some _) = Option.map _ (if first = f.name then _ else _)
    split <;> rfl

theorem ofFiles_map_shown (files : List File) :
    ofFiles (files.map File.shown) = (ofFiles files).shown := by
  have hn : (files.map File.shown).map Entry.ofFile = (files.map Entry.ofFile).map Entry.shown := by
    rw [List.map_map, List.map_map]
    rfl
  have hr : (files.map File.shown).filterMap Entry.ofRenamed? =
      (files.filterMap Entry.ofRenamed?).map Entry.shown := by
    rw [List.filterMap_map, List.map_filterMap]
    exact List.filterMap_congr fun f _ => ofRenamed?_shown f
  rw [ofFiles, hn, hr, show empty = empty.shown from rfl, foldl_shown insert_shown,
    foldl_shown insertNew_shown, ofFiles]

theorem lookup?_shown : t.shown.lookup? path = (t.lookup? path).map Entry.shown := by
  have ha : t.shown.at? path = (t.at? path).map Entry.shown := by
    unfold at? shown
    rw [List.find?_map]
    rfl
  have hl : t.shown.entries.find? (fun e => Text.lowercase e.path == Text.lowercase path) =
      (t.entries.find? fun e => Text.lowercase e.path == Text.lowercase path).map Entry.shown := by
    unfold shown
    rw [List.find?_map]
    rfl
  unfold lookup?
  rw [ha]
  cases t.at? path with
  | some e => rfl
  | none => exact hl

end PathTable

/-! ## The page -/

namespace Page

open PathTable (Entry)

variable {files files' : List File}

/-- A path leads to the same asset, and to its bytes. -/
theorem assetAt?_shown (t : PathTable) (path : String) : assetAt? t.shown path = assetAt? t path := by
  unfold assetAt?
  rw [PathTable.lookup?_shown]
  cases t.lookup? path with
  | none => rfl
  | some e =>
    by_cases h : e.kind.role = .asset
    · have he : e.shown = e := by rw [Entry.shown, h]; rfl
      rw [Option.map_some, he]
    · have hs : e.shown.kind.role ≠ .asset := h
      simp [Option.filter_some, h, hs]

/-- The sections of a page are made of the same texts. -/
theorem map_filesOf_shown {β : Type} {role : Role} (hr : role ≠ .inert) (block : File → β)
    (hb : ∀ f : File, f.shown.text = f.text → block f.shown = block f) :
    (filesOf role (files.map File.shown)).map block = (filesOf role files).map block := by
  unfold filesOf
  rw [List.filter_map, List.map_map]
  refine List.map_congr_left fun f hf => hb f (File.text_shown ?_)
  have hrole : f.role = role := of_decide_eq_true (List.mem_filter.mp hf).2
  rwa [hrole]

/-- A page shows nothing that is hidden. -/
theorem ofFiles_map_shown (files : List File) : ofFiles (files.map File.shown) = ofFiles files := by
  obtain ⟨hs, hm⟩ := blocks_congr (assetAt?_shown (PathTable.ofFiles files))
  have hname (f : File) : f.shown.name = f.name := rfl
  unfold ofFiles
  simp only [PathTable.ofFiles_map_shown, hs, hm]
  rw [map_filesOf_shown (by decide) (styleBlock _) fun f ht => by
      rw [styleBlock, styleBlock, hname, ht],
    map_filesOf_shown (by decide) (markupBlock _) fun f ht => by
      rw [markupBlock, markupBlock, hname, ht],
    map_filesOf_shown (by decide) moduleOf fun f ht => by rw [moduleOf, moduleOf, hname, ht],
    map_filesOf_shown (by decide) (fun f => classicBlock f.name f.text) fun f ht => by
      rw [hname, ht]]

/-- Lists of files that differ only in the contents of inert files and in the bytes of files that
are no assets make the same page. -/
theorem ofFiles_eq_of_sameButHidden (h : List.Forall₂ File.SameButHidden files files') :
    ofFiles files = ofFiles files' := by
  have hshown : files.map File.shown = files'.map File.shown := by
    induction h with
    | nil => rfl
    | cons hf _ ih => rw [List.map_cons, List.map_cons, hf.shown_eq, ih]
  calc ofFiles files
    _ = ofFiles (files.map File.shown) := (ofFiles_map_shown files).symm
    _ = ofFiles (files'.map File.shown) := by rw [hshown]
    _ = ofFiles files' := ofFiles_map_shown files'

/-- A page with references to a note, to a style sheet of bytes and to an image. -/
def notebook : List File := [
  .new 0 "index.html" .html (.text "<img src=\"NOTES.md\"><img src=\"a.css\"><img src=\"b.png\">"),
  .new 1 "notes.md" .markdown (.text "# To do"),
  .new 2 "a.css" .css (.payload "AAAA"),
  .new 3 "b.png" .image (.payload "AAAA")]

/-- The same with a note of bytes and with other bytes in the style sheet. -/
def otherNotebook : List File := [
  .new 0 "index.html" .html (.text "<img src=\"NOTES.md\"><img src=\"a.css\"><img src=\"b.png\">"),
  .new 1 "notes.md" .markdown (.payload "Q0ND"),
  .new 2 "a.css" .css (.payload "QkJC"),
  .new 3 "b.png" .image (.payload "AAAA")]

theorem ofFiles_eq_of_sameButHidden_notebook :
    List.Forall₂ File.SameButHidden notebook otherNotebook ∧
    ofFiles notebook = ofFiles otherNotebook := by
  have h : List.Forall₂ File.SameButHidden notebook otherNotebook :=
    .cons ⟨rfl, .inl rfl⟩ (.cons ⟨rfl, .inr (.inl rfl)⟩
      (.cons ⟨rfl, .inr (.inr ⟨by decide, rfl, rfl⟩)⟩ (.cons ⟨rfl, .inl rfl⟩ .nil)))
  exact ⟨h, ofFiles_eq_of_sameButHidden h⟩

end Page
end Workbench
