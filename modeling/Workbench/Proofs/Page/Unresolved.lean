import Workbench.Proofs.Page.StyleAttribute
import Workbench.Proofs.Pattern.InPlace

/-!
# References that lead to no asset

A reference is replaced only if it leads to an asset. So a style sheet is rewritten one `url(...)` at a
time, each by the URL of its own asset or not at all, and the text around them stays in place. Markup
in which no reference leads to an asset comes through both passes as it is: the second pass finds the
text that the first one found (`unresolved_references_stay`).
-/

namespace Workbench.Page

open Markup Pattern Text

variable {table : PathTable} {current reference text : String} {e : PathTable.Entry} {h : Hit}

/-- The reference in the file at `current` leads to the asset. -/
def LeadsTo (table : PathTable) (current reference : String) (e : PathTable.Entry) : Prop :=
  isExternal reference = false ∧
    table.find? (withoutQuery reference) (some current) = some e ∧ e.kind.role = .asset

/-- The reference in the file at `current` is external, or what it leads to, if anything, is no
asset. -/
def LeadsNowhere (table : PathTable) (current reference : String) : Prop :=
  isExternal reference = true ∨
    ∀ e, table.find? (withoutQuery reference) (some current) = some e → e.kind.role ≠ .asset

theorem assetOf?_eq_some_iff : assetOf? table current reference = some e ↔
    LeadsTo table current reference e := by
  rw [assetOf?, assetAt?, LeadsTo, PathTable.find?]
  cases isExternal reference <;> simp [Option.filter_eq_some_iff]

theorem assetOf?_eq_none_iff : assetOf? table current reference = none ↔
    LeadsNowhere table current reference := by
  rw [assetOf?, assetAt?, LeadsNowhere, PathTable.find?]
  cases isExternal reference <;> simp [Option.filter_eq_none_iff]

/-- The reference in a `url(...)`, without the blanks around it. -/
def urlReference (h : Hit) : String := trim (String.ofList (h.groupText 2))

/-- The reference in an attribute. -/
def attributeReference (h : Hit) : String := String.ofList (h.groupText 3)

/-- No `url(...)` that is found in the text leads to an asset. -/
def UrlsLeadNowhere (table : PathTable) (current text : String) : Prop :=
  ∀ h ∈ urlToken.pattern.hits text, LeadsNowhere table current (urlReference h)

/-- No attribute that is found in the text leads to an asset. -/
def AttributesLeadNowhere (table : PathTable) (current text : String) : Prop :=
  ∀ h ∈ assetReference.pattern.hits text, LeadsNowhere table current (attributeReference h)

/-- What is written for a `url(...)` is the URL of the asset that its reference leads to, or the
`url(...)` itself if there is none. -/
def IsOwnAsset (table : PathTable) (current : String) (r : Replacement) : Prop :=
  (∃ e, LeadsTo table current (urlReference r.hit) e ∧
    r.written = ("url(\"" ++ e.dataUrl ++ "\")").toList) ∨
  LeadsNowhere table current (urlReference r.hit) ∧ r.written = r.hit.text

theorem isOwnAsset_of_pair {r : Replacement} (h : r.written = styleReading table current r.hit) :
    IsOwnAsset table current r := by
  cases he : assetIn? table current r.hit with
  | none => exact .inr ⟨assetOf?_eq_none_iff.mp he, h.trans (styleReading_of_none he)⟩
  | some e => exact .inl ⟨e, assetOf?_eq_some_iff.mp he, h.trans (styleReading_of_some he)⟩

theorem inlineStyle_eq_self (h : UrlsLeadNowhere table current text) :
    inlineStyle table current text = text :=
  replace_of_kept fun hit hm => styleReading_of_none (assetOf?_eq_none_iff.mpr (h hit hm))

theorem attributed_eq_self (h : AttributesLeadNowhere table current text) :
    attributed table current text = text :=
  replace_of_kept fun hit hm => attributeReading_of_none (assetOf?_eq_none_iff.mpr (h hit hm))

/-- A text without references to assets stays as it is, as a style sheet and as markup. In any style
sheet each `url(...)` is replaced by its own asset or kept, where it stands. -/
theorem unresolved_references_stay (table : PathTable) (current text : String) :
    (UrlsLeadNowhere table current text → inlineStyle table current text = text) ∧
    (UrlsLeadNowhere table current text → AttributesLeadNowhere table current text →
      inlineMarkup table current text = text) ∧
    ∃ rs, Turns rs text.toList (inlineStyle table current text).toList ∧
      rs.map Replacement.hit = urlToken.pattern.hits text ∧
      ∀ r ∈ rs, IsOwnAsset table current r := by
  refine ⟨inlineStyle_eq_self, fun hurls hattributes => ?_, ?_⟩
  · rw [inlineMarkup, ← attributed, attributed_eq_self hattributes, inlineStyle_eq_self hurls]
  · obtain ⟨rs, hturns, hpairs⟩ :=
      exists_turns_replace (p := urlToken.pattern) rfl (styleReading table current) text
    refine ⟨rs, hturns, ?_, fun r hr => isOwnAsset_of_pair ?_⟩
    · have hfirst := congrArg (List.map Prod.fst) hpairs
      simpa [Replacement.pair, Function.comp_def] using hfirst
    · have hpair : r.pair ∈ _ := hpairs ▸ List.mem_map_of_mem hr
      obtain ⟨h, -, heq⟩ := List.mem_map.mp hpair
      obtain ⟨rfl, hwritten⟩ := Prod.mk.inj heq
      exact hwritten.symm

/-- Markup with an external source, a style without an image, and a link to no file. -/
def unpictured : String :=
  "<img src=\"https://x/a.png\" style='color:url( b.png )'><a href=''>url('a.png)"

theorem unresolved_references_stay_unpictured :
    UrlsLeadNowhere pictured "b/index.html" unpictured ∧
      AttributesLeadNowhere pictured "b/index.html" unpictured ∧
      inlineMarkup pictured "b/index.html" unpictured = unpictured := by
  have hurls : UrlsLeadNowhere pictured "b/index.html" unpictured := by
    unfold UrlsLeadNowhere
    simp only [← assetOf?_eq_none_iff]
    decide
  have hattributes : AttributesLeadNowhere pictured "b/index.html" unpictured := by
    unfold AttributesLeadNowhere
    simp only [← assetOf?_eq_none_iff]
    decide
  exact ⟨hurls, hattributes,
    (unresolved_references_stay pictured "b/index.html" unpictured).2.1 hurls hattributes⟩

end Workbench.Page
