import Workbench.Proofs.Markup.UrlToken
import Workbench.Proofs.Page.DataUrl
import Workbench.Proofs.Page.StyleElement

/-!
# Assets in the page

A reference that is resolved to an asset is replaced by the URL of the asset, and the page holds the
rewritten text with this URL at the place of the reference. For a `url(...)` of a style sheet or of
markup that is what replacing means. An attribute of the markup is replaced first and then looked
through once more for `url(...)`: the attribute that was written comes through unchanged
(`toList_inlineMarkup`), because no `url(...)` runs over it or begins in it.

`Embedded` says this of one file and some bytes. It holds for every file whose content stands for the
bytes (`embedded_of_standsFor`), whatever the other files are.
-/

namespace Workbench

/-- The entry leads to the file: it has one of its names, its kind and its content. -/
structure PathTable.Entry.IsOf (e : Entry) (f : File) : Prop where
  path : e.path ∈ f.names
  kind : e.kind = f.kind
  content : e.content = f.content

namespace Page

open Markup Pattern

variable {table : PathTable} {current : String} {files : List File} {f g : File}
  {e : PathTable.Entry} {bytes : List UInt8} {before after : List Piece} {h : Hit}

/-! ## Rewritten pieces -/

/-- The pieces of a style sheet as they are written. -/
def styled (table : PathTable) (current : String) (ps : List Piece) : List Char :=
  ps.flatMap (Piece.write (styleReading table current))

theorem styled_gap (c : Char) (ps : List Piece) :
    styled table current (.gap c :: ps) = c :: styled table current ps := by
  rw [styled, List.flatMap_cons, Piece.write]
  rfl

theorem styled_hit (h : Hit) (ps : List Piece) :
    styled table current (.hit h :: ps) = styleReading table current h ++ styled table current ps := by
  rw [styled, List.flatMap_cons, Piece.write]
  rfl

/-- The markup with its attributes rewritten. -/
def attributed (table : PathTable) (current markup : String) : String :=
  assetReference.pattern.replace (attributeReading table current) markup

/-- The pieces of markup as they are written, with the `url(...)` in them rewritten as well. -/
def inlined (table : PathTable) (current : String) (ps : List Piece) : List Char :=
  (inlineStyle table current
    (String.ofList (ps.flatMap (Piece.write (attributeReading table current))))).toList

theorem toList_inlineStyle {css : String}
    (hc : urlToken.pattern.cut css.toList = before ++ .hit h :: after)
    (he : assetIn? table current h = some e) :
    (inlineStyle table current css).toList =
      styled table current before ++
        (("url(\"" ++ e.dataUrl ++ "\")").toList ++ styled table current after) := by
  rw [inlineStyle, toList_replace, hc, List.flatMap_append, List.flatMap_cons, Piece.write,
    styleReading_of_some he]
  rfl

theorem attributeReading_of_some (he : assetOf? table current (String.ofList (h.groupText 3)) = some e) :
    attributeReading table current h =
      h.groupText 1 ++ '=' :: h.groupText 2 ++ e.dataUrl.toList ++ h.groupText 2 := by
  unfold attributeReading
  simp only [assetUrl?_eq_map, he, Option.map_some]

theorem attributeReading_of_none (he : assetOf? table current (String.ofList (h.groupText 3)) = none) :
    attributeReading table current h = h.text := by
  unfold attributeReading
  simp only [assetUrl?_eq_map, he, Option.map_none]

theorem dependsOnText_styleReading (table : PathTable) (current : String) :
    DependsOnText (styleReading table current) := by
  intro h h' ht hg
  unfold styleReading
  rw [ht, hg 2]

/-- The second pass over the markup leaves an attribute as it was written. -/
theorem toList_inlineStyle_attribute {a : List Char} (ha : IsAttribute a) (x y : List Char) :
    (inlineStyle table current (String.ofList (x ++ (a ++ y)))).toList =
      (inlineStyle table current (String.ofList x)).toList ++
        (a ++ (inlineStyle table current (String.ofList y)).toList) := by
  have hx : urlToken.pattern.ComesApart none (String.ofList x).toList
      (String.ofList (a ++ y)).toList := by
    rw [String.toList_ofList, String.toList_ofList]
    exact ha.comesApart
  have hy (b₁ b₂ : List Char) (h : a = b₁ ++ b₂) (hne : b₂ ≠ []) :
      urlToken.pattern.readAt none (b₂ ++ (String.ofList y).toList) = none := ha.readAt h hne
  rw [String.ofList_append, inlineStyle,
    replace_append urlToken_sectioned (dependsOnText_styleReading table current) hx,
    String.toList_append, String.ofList_append, replace_gaps_append urlToken_sectioned _ hy,
    String.toList_append, String.toList_ofList]
  rfl

theorem toList_inlineMarkup {markup : String}
    (hc : assetReference.pattern.cut markup.toList = before ++ .hit h :: after)
    (he : assetOf? table current (String.ofList (h.groupText 3)) = some e)
    (hb : e.content.IsWellEncoded) :
    (inlineMarkup table current markup).toList =
      inlined table current before ++
        (h.groupText 1 ++ '=' :: h.groupText 2 ++ e.dataUrl.toList ++ h.groupText 2 ++
          inlined table current after) := by
  have hcuts := cuts_cut (p := assetReference.pattern) rfl markup.toList
  obtain ⟨last, s, hr⟩ := hcuts.exists_readAt (h := h) (by simp [hc])
  have hplain := isPlain_of_mem_dataUrl hb
  have ha := isAttribute_of_readAt hr e.dataUrl.toList
    (fun hm => absurd (hplain _ hm) (by decide)) (fun hm => absurd (hplain _ hm) (by decide))
  have hw : (attributed table current markup).toList = _ := toList_replace _ _ _
  rw [hc, List.flatMap_append, List.flatMap_cons, Piece.write, attributeReading_of_some he] at hw
  rw [inlineMarkup, ← attributed, ← String.ofList_toList (s := attributed table current markup), hw,
    toList_inlineStyle_attribute ha]
  rfl

/-! ## Sections of the page -/

/-- The markup of a file that becomes part of the page, before its assets are put in. -/
def fragmentOf (g : File) : String := dropLocalReferences (bodyOf g.text)

theorem infix_join {s : String} {l : List String} (h : s ∈ l) :
    s.toList <:+: (String.join l).toList := by
  obtain ⟨a, b, rfl⟩ := List.append_of_mem h
  rw [String.toList_join, List.flatMap_append, List.flatMap_cons]
  exact List.infix_append' _ _ _

theorem inlineMarkup_infix_ofFiles (hg : g ∈ filesOf .markup files) :
    (inlineMarkup (PathTable.ofFiles files) g.name (fragmentOf g)).toList <:+:
      (ofFiles files).toList := by
  have hblock : (inlineMarkup (PathTable.ofFiles files) g.name (fragmentOf g)).toList <:+:
      (markupBlock (PathTable.ofFiles files) g).toList := by
    rw [markupBlock, String.toList_append]
    exact (List.prefix_append _ _).isInfix
  have hjoin := hblock.trans (infix_join (List.mem_map_of_mem hg))
  unfold ofFiles
  simp only [String.toList_append]
  refine List.infix_append_of_infix_left (List.infix_append_of_infix_left
    (List.infix_append_of_infix_left ?_))
  exact List.infix_append_of_infix_right hjoin

theorem mem_dropBlankTail {s : List Char} {c : Char} (hc : c ∈ s) (hb : Text.isBlank c = false) :
    c ∈ Text.dropBlankTail s := by
  obtain ⟨tail, hs, htail⟩ := Text.dropBlankTail_append s
  rw [hs] at hc
  refine (List.mem_append.mp hc).resolve_right fun h => ?_
  exact Bool.false_ne_true (hb.symm.trans (htail c h))

theorem mem_trim {s : String} {c : Char} (hc : c ∈ s.toList) (hb : Text.isBlank c = false) :
    c ∈ (Text.trim s).toList := by
  rw [← List.takeWhile_append_dropWhile (p := Text.isBlank) (l := s.toList)] at hc
  rw [Text.trim, String.toList_ofList]
  refine mem_dropBlankTail ((List.mem_append.mp hc).resolve_left fun h => ?_) hb
  exact Bool.false_ne_true (hb.symm.trans (List.all_eq_true.mp List.all_takeWhile c h))

/-- A style sheet that is not blank is part of the page. -/
theorem inlineStyle_infix_ofFiles (hg : g ∈ filesOf .stylesheet files) {c : Char}
    (hc : c ∈ (inlineStyle (PathTable.ofFiles files) g.name g.text).toList)
    (hb : Text.isBlank c = false) :
    (inlineStyle (PathTable.ofFiles files) g.name g.text).toList <:+: (ofFiles files).toList := by
  have hblock : (inlineStyle (PathTable.ofFiles files) g.name g.text).toList <:+:
      (styleBlock (PathTable.ofFiles files) g).toList := by
    rw [styleBlock, String.toList_append]
    exact (List.prefix_append _ _).isInfix
  have hjoin := hblock.trans (infix_join (List.mem_map_of_mem hg))
  have hne : (Text.trim (styleText files)).isEmpty = false := by
    rw [← Bool.not_eq_true, String.isEmpty_iff]
    intro h
    have hm := mem_trim (hjoin.subset hc) hb
    rw [← styleText, h] at hm
    exact absurd hm List.not_mem_nil
  have hsection : (styleText files).toList <:+: (styleSection (styleText files)).toList := by
    rw [styleSection, hne, if_neg Bool.false_ne_true]
    simp only [String.toList_append]
    exact List.infix_append _ _ _
  unfold ofFiles
  simp only [String.toList_append]
  refine (hjoin.trans hsection).trans ?_
  refine List.infix_append_of_infix_left (List.infix_append_of_infix_left
    (List.infix_append_of_infix_left (List.infix_append_of_infix_left
      (List.infix_append_of_infix_left ?_))))
  exact (List.suffix_append _ _).isInfix

/-! ## Assets of which references are resolved -/

/-- The page holds `text url` for a URL that carries the bytes. -/
def Shows (files : List File) (bytes : List UInt8) (text : String → List Char) : Prop :=
  ∃ url, dataOf? url = some bytes ∧ text url <:+: (ofFiles files).toList

/-- Wherever a reference is resolved to the file, the page has a URL that carries the bytes in its
place, in the midst of the rewritten style sheet or markup. -/
structure Embedded (files : List File) (f : File) (bytes : List UInt8) : Prop where
  /-- In a `url(...)` of a style sheet. -/
  inSheet : ∀ g ∈ filesOf .stylesheet files, ∀ e : PathTable.Entry, e.IsOf f → ∀ before h after,
    urlToken.pattern.cut g.text.toList = before ++ .hit h :: after →
    assetIn? (PathTable.ofFiles files) g.name h = some e →
    Shows files bytes fun url =>
      styled (PathTable.ofFiles files) g.name before ++
        (("url(\"" ++ url ++ "\")").toList ++ styled (PathTable.ofFiles files) g.name after)
  /-- In an attribute of markup. -/
  inAttribute : ∀ g ∈ filesOf .markup files, ∀ e : PathTable.Entry, e.IsOf f → ∀ before h after,
    assetReference.pattern.cut (fragmentOf g).toList = before ++ .hit h :: after →
    assetOf? (PathTable.ofFiles files) g.name (String.ofList (h.groupText 3)) = some e →
    Shows files bytes fun url =>
      inlined (PathTable.ofFiles files) g.name before ++
        (h.groupText 1 ++ '=' :: h.groupText 2 ++ url.toList ++ h.groupText 2 ++
          inlined (PathTable.ofFiles files) g.name after)
  /-- In a `url(...)` of markup. -/
  inMarkup : ∀ g ∈ filesOf .markup files, ∀ e : PathTable.Entry, e.IsOf f → ∀ before h after,
    urlToken.pattern.cut (attributed (PathTable.ofFiles files) g.name (fragmentOf g)).toList =
      before ++ .hit h :: after →
    assetIn? (PathTable.ofFiles files) g.name h = some e →
    Shows files bytes fun url =>
      styled (PathTable.ofFiles files) g.name before ++
        (("url(\"" ++ url ++ "\")").toList ++ styled (PathTable.ofFiles files) g.name after)

theorem embedded_of_standsFor (hb : f.content.StandsFor bytes) : Embedded files f bytes where
  inSheet g hg e he before h after hc ha := by
    have htext := toList_inlineStyle hc ha
    have hparen : ')' ∈ (inlineStyle (PathTable.ofFiles files) g.name g.text).toList := by
      rw [htext]
      simp
    refine ⟨e.dataUrl, dataOf?_of_standsFor (he.content ▸ hb), ?_⟩
    simp only [← htext]
    exact inlineStyle_infix_ofFiles hg hparen (by decide)
  inAttribute g hg e he before h after hc ha := by
    refine ⟨e.dataUrl, dataOf?_of_standsFor (he.content ▸ hb), ?_⟩
    simp only [← toList_inlineMarkup hc ha (he.content ▸ hb.isWellEncoded)]
    exact inlineMarkup_infix_ofFiles hg
  inMarkup g hg e he before h after hc ha := by
    refine ⟨e.dataUrl, dataOf?_of_standsFor (he.content ▸ hb), ?_⟩
    simp only [← toList_inlineStyle hc ha]
    exact inlineMarkup_infix_ofFiles hg

end Page
end Workbench
