import Workbench.Page.Document
import Workbench.Proofs.Paths.Table

/-!
# The order of files

A page has its files in an order of its own: by role, and within a role as they are given. Where a
file stands among files of other roles shows nowhere else, provided that no two files share a name
up to letter case. A path then leads to one file at most, wherever this file stands, so every
reference is replaced by the same asset. Inert files can be left out as well: a reference that
leads to one is not replaced, and without the file it leads nowhere.

* `assetAt?_rearranged`: a path leads to the same asset.
* `ofFiles_rearranged`: the page is the same.
-/

namespace Workbench.Page

variable {files kept dropped : List File}

/-! ## What a reference is replaced by -/

/-- The asset that a path leads to. -/
def assetAt? (table : PathTable) (path : String) : Option PathTable.Entry :=
  (table.lookup? path).filter fun e => e.kind.role = .asset

theorem assetUrl?_eq (table : PathTable) (current reference : String) :
    assetUrl? table current reference =
      if Markup.isExternal reference then none
      else (assetAt? table (Paths.resolve current (Markup.withoutQuery reference))).map
        PathTable.Entry.dataUrl := by
  unfold assetUrl? assetAt? PathTable.find?
  split
  · rfl
  · cases table.lookup? (Paths.resolve current (Markup.withoutQuery reference)) with
    | none => rfl
    | some e => by_cases h : e.kind.role = .asset <;> simp [h, Option.filter_some]

/-- Two tables in which every path leads to the same asset are the same to style sheets and
markup. -/
theorem blocks_congr {t t' : PathTable} (h : ∀ path, assetAt? t path = assetAt? t' path) :
    styleBlock t = styleBlock t' ∧ markupBlock t = markupBlock t' := by
  have hu : assetUrl? t = assetUrl? t' := by
    funext current reference
    rw [assetUrl?_eq, assetUrl?_eq, h]
  have hs : inlineStyle t = inlineStyle t' := by
    unfold inlineStyle styleReading
    rw [hu]
  have hm : inlineMarkup t = inlineMarkup t' := by
    unfold inlineMarkup attributeReading
    rw [hu, hs]
  exact ⟨by unfold styleBlock; rw [hs], by unfold markupBlock; rw [hm]⟩

/-! ## Files without a name in common -/

/-- No two files of the list share a name, whatever its letter case. -/
def NamesDiffer (files : List File) : Prop :=
  files.Pairwise fun f g =>
    ∀ n ∈ f.names, ∀ m ∈ g.names, Text.lowercase n ≠ Text.lowercase m

theorem length_answering_le (h : NamesDiffer files) (path : String) :
    (files.filter (PathTable.answers path)).length ≤ 1 := by
  have hp := h.sublist (List.filter_sublist (p := PathTable.answers path))
  have ha : ∀ f ∈ files.filter (PathTable.answers path),
      ∃ n ∈ f.names, Text.lowercase n = Text.lowercase path := by
    intro f hf
    obtain ⟨n, hn, he⟩ := List.any_eq_true.mp (List.mem_filter.mp hf).2
    exact ⟨n, hn, eq_of_beq he⟩
  match files.filter (PathTable.answers path), hp, ha with
  | [], _, _ => exact Nat.zero_le 1
  | [_], _, _ => exact Nat.le_refl 1
  | f :: g :: _, hp, ha =>
    obtain ⟨n, hn, hfn⟩ := ha f (by simp)
    obtain ⟨m, hm, hgm⟩ := ha g (by simp)
    exact absurd (hfn.trans hgm.symm) (List.rel_of_pairwise_cons hp (by simp) n hn m hm)

/-- A path is looked up among the files that answer to it. -/
theorem assetAt?_answering (files : List File) (path : String) :
    assetAt? (PathTable.ofFiles (files.filter (PathTable.answers path))) path =
      assetAt? (PathTable.ofFiles files) path := by
  unfold assetAt?
  rw [PathTable.lookup?_ofFiles]

theorem assetAt?_of_inert (h : ∀ f ∈ files, f.role = .inert) (path : String) :
    assetAt? (PathTable.ofFiles files) path = none := by
  refine Option.filter_eq_none_iff.mpr fun e he => ?_
  obtain ⟨f, hf, hk⟩ := PathTable.exists_of_mem_ofFiles (PathTable.mem_of_lookup? he)
  have hr : e.kind.role = .inert := hk ▸ h f hf
  simp [hr]

/-- Among files without a name in common the order does not matter to a path, nor do inert files. -/
theorem assetAt?_rearranged (hn : NamesDiffer files) (hd : ∀ f ∈ dropped, f.role = .inert)
    (hp : files.Perm (kept ++ dropped)) (path : String) :
    assetAt? (PathTable.ofFiles kept) path = assetAt? (PathTable.ofFiles files) path := by
  have hl := length_answering_le hn path
  have hf := (hp.filter (PathTable.answers path)).symm
  rw [List.filter_append] at hf
  rw [← assetAt?_answering kept, ← assetAt?_answering files]
  match files.filter (PathTable.answers path), hl, hf with
  | [], _, hf =>
    rw [(List.append_eq_nil_iff.mp hf.eq_nil).1]
  | [g], _, hf =>
    rcases List.append_eq_singleton_iff.mp hf.eq_singleton with ⟨hk, hg⟩ | ⟨hk, -⟩
    · -- the one file that answers to the path is left out
      have hg' : g ∈ dropped.filter (PathTable.answers path) := hg ▸ List.mem_cons_self
      have hi : g.role = .inert := hd g (List.mem_filter.mp hg').1
      rw [hk, assetAt?_of_inert (by simp), assetAt?_of_inert (by simpa using hi)]
    · rw [hk]
  | _ :: _ :: _, hl, _ => simp at hl

/-- The second list has the files of the first, except that inert ones may be missing, and the files
of each role that has a section of the page in the same order. -/
structure Rearranged (files files' : List File) : Prop where
  perm : ∃ dropped, (∀ f ∈ dropped, f.role = .inert) ∧ files.Perm (files' ++ dropped)
  order : ∀ role, role ≠ .asset → role ≠ .inert → filesOf role files' = filesOf role files

/-- Files in another order make the same page, as long as the order within each role is kept. -/
theorem ofFiles_rearranged {files files' : List File} (hn : NamesDiffer files)
    (hr : Rearranged files files') : ofFiles files' = ofFiles files := by
  obtain ⟨⟨dropped, hd, hp⟩, ho⟩ := hr
  obtain ⟨hs, hm⟩ := blocks_congr (assetAt?_rearranged hn hd hp)
  unfold ofFiles
  simp only [hs, hm, ho _ (show Role.stylesheet ≠ .asset by decide) (by decide),
    ho _ (show Role.markup ≠ .asset by decide) (by decide),
    ho _ (show Role.moduleScript ≠ .asset by decide) (by decide),
    ho _ (show Role.classicScript ≠ .asset by decide) (by decide)]

/-- A page with a style sheet, both with references to an image that was renamed and to a note. -/
def album : List File := [
  .new 0 "index.html" .html (.text "<img src=\"LOGO.png\"><a href=\"notes.md\">Notes</a>"),
  .new 1 "notes.md" .markdown (.text "# Notes"),
  .new 2 "style.css" .css (.text "body \x7b background: url(brand.png) \x7d"),
  (File.new 3 "brand.png" .image (.payload "AAAA")).rename "logo.png",
  .new 4 "main.js" .script (.text "run()"),
  .new 5 "tools.mjs" .moduleScript (.text "export function run() \x7b\x7d")]

/-- The same files in another order and without the note. -/
def shuffledAlbum : List File := [
  .new 5 "tools.mjs" .moduleScript (.text "export function run() \x7b\x7d"),
  (File.new 3 "brand.png" .image (.payload "AAAA")).rename "logo.png",
  .new 4 "main.js" .script (.text "run()"),
  .new 2 "style.css" .css (.text "body \x7b background: url(brand.png) \x7d"),
  .new 0 "index.html" .html (.text "<img src=\"LOGO.png\"><a href=\"notes.md\">Notes</a>")]

theorem ofFiles_shuffledAlbum :
    NamesDiffer album ∧ Rearranged album shuffledAlbum ∧ ofFiles shuffledAlbum = ofFiles album := by
  have hn : NamesDiffer album := by
    unfold NamesDiffer
    decide
  have hr : Rearranged album shuffledAlbum := by
    refine ⟨⟨[.new 1 "notes.md" .markdown (.text "# Notes")], by decide, by decide⟩, ?_⟩
    intro role ha hi
    cases role <;> first | contradiction | decide
  exact ⟨hn, hr, ofFiles_rearranged hn hr⟩

end Workbench.Page
