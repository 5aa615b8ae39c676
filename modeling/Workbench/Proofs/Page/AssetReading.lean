import Workbench.Proofs.Markup.AssetReference
import Workbench.Proofs.Markup.TagParts
import Workbench.Proofs.Page.Embedded
import Workbench.Proofs.Pattern.Stay

/-!
# How a reference to an asset is written

The rules for attributes and for `url(...)` differ in what they look for and in where the reference
stands in it, but not in how a reading is written: as it was if it leads to no asset, and otherwise with
the URL of the asset between two quotes (`WritesAssets`). What follows from this holds of both. Whether
a reading was replaced is seen from the text if it begins differently now (`ShowsAssets`).
-/

namespace Workbench.Page

open Markup Pattern Script Text

variable {table : PathTable} {current : String} {last : Option Char} {s : List Char} {h : Hit}
  {e : PathTable.Entry} {p : Pattern} {write : Hit → List Char} {asset? : Hit → Option PathTable.Entry}

theorem mem_entries_of_assetOf? {reference : String} (h : assetOf? table current reference = some e) :
    e ∈ table.entries := by
  unfold assetOf? at h
  split at h
  · cases h
  · exact PathTable.mem_of_lookup? (Option.filter_eq_some_iff.mp h).1

/-- A reading is written as it is if it leads to no asset, and otherwise with the URL of the asset
between two quotes. No angle bracket stands around them. -/
structure WritesAssets (p : Pattern) (write : Hit → List Char)
    (asset? : Hit → Option PathTable.Entry) : Prop where
  of_none : ∀ {h}, asset? h = none → write h = h.text
  of_some : ∀ {last s h e}, p.readAt last s = some h → asset? h = some e →
    ∃ (head : List Char) (q : Char) (tail : List Char), isQuote q = true ∧
      (∀ c ∈ head ++ tail, isInside c = true) ∧
      write h = head ++ q :: (e.dataUrl.toList ++ q :: tail)

/-- What is written for an asset begins with a text that did not stand there and holds no closing
bracket. -/
def ShowsAssets (p : Pattern) (write : Hit → List Char)
    (asset? : Hit → Option PathTable.Entry) : Prop :=
  ∀ {last s h e}, p.readAt last s = some h → asset? h = some e →
    ∃ m, m <+: write h ∧ ')' ∉ m ∧ ¬ m <+: s

namespace WritesAssets

/-- Nothing that was read vanishes. -/
theorem ne_nil (hw : WritesAssets p write asset?) (hp : p.takesSome = true)
    (hr : p.readAt last s = some h) : write h ≠ [] := by
  cases he : asset? h with
  | none =>
    rw [hw.of_none he]
    exact (reads_of_readAt hr).2.ne_nil hp
  | some e =>
    obtain ⟨head, q, tail, -, -, hwrite⟩ := hw.of_some hr he
    rw [hwrite]
    exact List.append_ne_nil_of_right_ne_nil _ (List.cons_ne_nil _ _)

theorem showsChange (hw : WritesAssets p write asset?) (hs : ShowsAssets p write asset?) :
    p.ShowsChange write ')' :=
  showsChange_of_head fun {_ _ h} hr => by
    cases he : asset? h with
    | none => exact .inl (hw.of_none he)
    | some e => exact .inr (hs hr he)

/-- A reading is written as it is exactly if it leads to no asset. -/
theorem eq_text_iff (hw : WritesAssets p write asset?) (hs : ShowsAssets p write asset?)
    (hr : p.readAt last s = some h) : write h = h.text ↔ asset? h = none := by
  refine ⟨fun hkept => ?_, hw.of_none⟩
  by_contra hn
  obtain ⟨e, he⟩ := Option.ne_none_iff_exists'.mp hn
  obtain ⟨m, hm, -, hstood⟩ := hs hr he
  exact ne_text_of_head hr hm hstood hkept

/-- A text that ends with a closing bracket stays where no reading that touches it leads to an asset. -/
theorem stays_iff (hw : WritesAssets p write asset?) (hs : ShowsAssets p write asset?)
    (hp : p.Sectioned) (hcompact : p.Compact) (hf : DependsOnText write)
    {before token after : String} (htoken : token.toList.getLast? = some ')') :
    Stays (p.replace write) before token after ↔
      ∀ h ∈ p.hits (before ++ (token ++ after)), h.Touches token after → asset? h = none :=
  stays_replace_iff_of hp hcompact hf (hw.showsChange hs) (hw.eq_text_iff hs) htoken

end WritesAssets

/-! ## The two rules -/

theorem writesAssets_styleReading (table : PathTable) (current : String) :
    WritesAssets urlToken.pattern (styleReading table current) (assetIn? table current) where
  of_none := styleReading_of_none
  of_some _ he := by
    refine ⟨"url(".toList, '"', [')'], rfl, List.all_eq_true.mp (by decide), ?_⟩
    rw [styleReading_of_some he]
    simp

/-- The name of an attribute is a word. -/
theorem isInside_of_mem_name (a : AttributeParts) : ∀ c ∈ a.name, isInside c = true := by
  intro c hc
  obtain ⟨letters, hletters, hname⟩ := a.name_folds
  obtain ⟨letter, hl, hfold⟩ := exists_letter_of_mem hname hc
  have hword : ∀ letters ∈ assetAttributes, letters.toList.all isLetter = true := by decide
  exact isInside_of_isWord (isWord_of_foldsTo (List.all_eq_true.mp (hword _ hletters) _ hl) hfold)

theorem writesAssets_attributeReading (table : PathTable) (current : String) :
    WritesAssets assetReference.pattern (attributeReading table current)
      fun h => assetOf? table current (String.ofList (h.groupText 3)) where
  of_none := attributeReading_of_none
  of_some hr he := by
    obtain ⟨a, ha⟩ := AttributeParts.exists_of_readAt hr
    refine ⟨a.blank :: a.name ++ ['='], a.opening, [], a.opening_quote, fun c hc => ?_, ?_⟩
    · simp only [List.append_nil, List.cons_append, List.mem_cons, List.mem_append,
        List.not_mem_nil, or_false] at hc
      rcases hc with rfl | hc | rfl
      · exact isInside_of_isBlank a.blank_blank
      · exact isInside_of_mem_name a c hc
      · decide
    · rw [attributeReading_of_some he, ha, a.groupText_one, a.groupText_two]
      simp

end Workbench.Page
