import Workbench.Proofs.Page.SecondPass
import Workbench.Proofs.Pattern.Stay

/-!
# Calls of functions whose names end in `url`

A `url(...)` is looked for at every place of a text, also behind the letters of a longer name. So a call
of `getUrl` is rewritten like a `url(...)` if its argument leads to an asset, the last letters of its
name with it (`not_forall_call_stays`). A call stays as it is exactly when no `url(...)` that is
found there leads to an asset; in markup the attributes that are found there count as well
(`call_stays_iff`). What stands before the call makes no difference.
-/

namespace Workbench.Page

open Markup Pattern Script Text

variable {table : PathTable} {current : String} {last : Option Char} {s w : List Char} {h : Hit}
  {e : PathTable.Entry}

/-- What is left of a call from the last letters of the function's name on: `url` and the opening
bracket in any letter case, and the text up to a closing bracket. -/
def IsCall (token : String) : Prop :=
  ∃ name argument : List Char,
    List.Forall₂ (fun letter c => foldsTo letter c = true) ['u', 'r', 'l', '('] name ∧
      token.toList = name ++ (argument ++ [')'])

theorem IsCall.getLast? {token : String} (h : IsCall token) : token.toList.getLast? = some ')' := by
  obtain ⟨name, argument, -, htoken⟩ := h
  rw [htoken, ← List.append_assoc, List.getLast?_append, List.getLast?_singleton, Option.some_or]

/-! ## Readings inside readings -/

/-- A `url(...)` ends with its first closing bracket. -/
theorem compact_urlToken : urlToken.pattern.Compact := by
  intro last last' a v b rest rest' h hv
  obtain ⟨m, hm, hbracket⟩ := exists_of_reads_urlToken h
  obtain ⟨x, rfl, -⟩ := exists_of_reads_urlToken hv
  rcases List.eq_nil_or_concat b with rfl | ⟨y, d, rfl⟩
  · rfl
  · rw [List.concat_eq_append, ← List.append_assoc, ← List.append_assoc] at hm
    obtain ⟨rfl, -⟩ := List.append_inj' hm rfl
    exact absurd (by simp) hbracket

/-- An attribute ends with its second quote. -/
theorem compact_assetReference : assetReference.pattern.Compact := by
  intro last last' a v b rest rest' h hv
  obtain ⟨p, hp⟩ := AttributeParts.exists_of_reads h
  obtain ⟨q, rfl⟩ := AttributeParts.exists_of_reads hv
  rcases List.eq_nil_or_concat b with rfl | ⟨y, d, rfl⟩
  · rfl
  · rw [List.concat_eq_append, ← List.append_assoc, ← List.append_assoc] at hp
    have hp : a ++ q.text ++ y ++ [d] = p.unclosed ++ [p.closing] := hp
    obtain ⟨hunclosed, -⟩ := List.append_inj' hp rfl
    have hcount := p.countP_unclosed
    rw [← hunclosed, AttributeParts.text] at hcount
    simp [List.countP_append, q.countP_unclosed, q.closing_quote] at hcount
    omega

/-! ## Changes that show -/

/-- A character that cannot stand between the reference of a `url(...)` and its end. -/
def isSolid (c : Char) : Bool := !isQuote c && !isBlank c && c != ')'

/-- Behind its reference a `url(...)` goes on with a quote, a blank or the closing bracket. -/
theorem stops_urlEnd {x rest : List Char}
    (h : (all [optional (char isQuote), gap, this ')']).Reads last x rest) :
    Stops isSolid (x ++ rest) := by
  obtain ⟨mark, _, rfl, hmark, trail, _, rfl, htrail, d, hd, rfl⟩ := h
  have hd : d = ')' := eq_of_beq hd
  have htrail : ∀ c ∈ trail, isBlank c = true := htrail
  have hend : Stops isSolid (trail ++ ([d] ++ rest)) :=
    .append (fun c hc => by simp [isSolid, htrail c hc]) (stops_cons.mpr (by simp [isSolid, hd]))
  rw [List.append_assoc, List.append_assoc]
  refine .append (fun c hc => ?_) hend
  rcases hmark with ⟨q, hq, rfl⟩ | rfl
  · simp [isSolid, List.mem_singleton.mp hc, hq]
  · exact absurd hc List.not_mem_nil

/-- The reference of a `url(...)` begins behind its opening quote. -/
theorem prefix_groupText_of_opening (hr : urlToken.pattern.readAt last s = some h)
    (hs : urlOpening '"' ++ w <+: s) (hw : ∀ c ∈ w, isSolid c = true) : w <+: h.groupText 2 := by
  obtain ⟨e, he, -, -, hcaptures⟩ := readAt_eq_some hr
  obtain ⟨rest, rfl⟩ := hs
  obtain ⟨m₁, hm₁, he⟩ := List.mem_flatMap.mp (List.mem_of_mem_head? he)
  obtain ⟨m₂, hm₂, he⟩ := List.mem_flatMap.mp he
  obtain ⟨m₃, hm₃, he⟩ := List.mem_flatMap.mp he
  -- the name takes four characters, and no blank stands before the quote
  obtain ⟨name, ⟨hname, -⟩, hfolds⟩ := reads_of_mem_ends _ hm₁
  have hname : ['u', 'r', 'l', '('] ++ '"' :: (w ++ rest) = name ++ m₁.rest := by
    simpa [urlOpening] using hname
  obtain ⟨-, hrest₁⟩ := List.append_inj hname ((reads_anyCase _).mp hfolds).length_eq
  obtain ⟨lead, ⟨hlead, -⟩, hblank⟩ := reads_of_mem_ends _ hm₂
  have hlead : '"' :: (w ++ rest) = lead ++ m₂.rest := hrest₁.trans hlead
  have hrest₂ : m₂.rest = '"' :: (w ++ rest) := by
    cases lead with
    | nil => exact hlead.symm
    | cons c lead =>
      obtain ⟨rfl, -⟩ := List.cons.inj hlead
      exact absurd (hblank '"' List.mem_cons_self) (by decide)
  obtain ⟨v, x, hrest₃, hv, hx, hcaptures'⟩ := exists_of_mem_ends_group rfl rfl he
  obtain ⟨opening, ⟨hopening, -⟩, hmark⟩ := reads_of_mem_ends _ hm₃
  have hopening : '"' :: (w ++ rest) = opening ++ (v ++ (x ++ e.rest)) := by
    rw [← hrest₃, ← hrest₂, hopening]
  have hgroup : h.groupText 2 = v := by
    simp [Hit.groupText, Hit.group?, hcaptures, hcaptures', hrest₃]
  rw [hgroup]
  rcases hmark with ⟨q, -, rfl⟩ | rfl
  · have hreference : w ++ rest = v ++ (x ++ e.rest) := (List.cons.inj hopening).2
    exact prefix_of_stops ⟨rest, hreference⟩ hw (stops_urlEnd hx)
  · -- the reference holds no quote, so the quote before it is read
    obtain ⟨c, v, rfl, hc, -⟩ := reads_some1.mp hv
    obtain ⟨rfl, -⟩ := List.cons.inj hopening
    exact absurd hc (by decide)

/-- A `url(...)` that is replaced is written with a beginning that did not stand there: with it the
reference would have been external. -/
theorem showsAssets_styleReading (table : PathTable) (current : String) :
    ShowsAssets urlToken.pattern (styleReading table current) (assetIn? table current) := by
  intro last s h e hr he
  refine ⟨urlOpening '"' ++ dataScheme, ?_, by decide, fun hs => ?_⟩
  · rw [styleReading_of_some he, toList_written, List.prefix_append_right_inj]
    exact (dataScheme_prefix_dataUrl e).trans (List.prefix_append _ _)
  · have hdata : dataScheme <+: (String.ofList (h.groupText 2)).toList := by
      rw [String.toList_ofList]
      exact prefix_groupText_of_opening hr hs (List.all_eq_true.mp (by decide))
    have hnone := assetOf?_eq_none_iff.mpr
      (.inl (isExternal_of_dataScheme (prefix_trim_of_dataScheme hdata)) :
        LeadsNowhere table current (urlReference h))
    exact Option.some_ne_none e (he.symm.trans hnone)

/-- So is an attribute. -/
theorem showsAssets_attributeReading (table : PathTable) (current : String) :
    ShowsAssets assetReference.pattern (attributeReading table current)
      fun h => assetOf? table current (String.ofList (h.groupText 3)) := by
  intro last s h e hr he
  have hbracket := (isAttribute_of_readAt hr dataScheme (by decide) (by decide)).noClosing
  refine ⟨h.groupText 1 ++ '=' :: h.groupText 2 ++ dataScheme, ?_, fun hm => ?_, fun hs => ?_⟩
  · rw [attributeReading_of_some he, List.append_assoc _ e.dataUrl.toList,
      List.prefix_append_right_inj]
    exact (dataScheme_prefix_dataUrl e).trans (List.prefix_append _ _)
  · exact hbracket (List.mem_append_left _ hm)
  · obtain ⟨p, hp⟩ := AttributeParts.exists_of_readAt hr
    rw [(reads_of_readAt hr).1, hp, p.groupText_one, p.groupText_two, AttributeParts.hit] at hs
    have hdata : dataScheme <+: (attributeReference h).toList := by
      rw [attributeReference, String.toList_ofList, hp, p.groupText_three]
      exact p.prefix_reference (List.all_eq_true.mp (by decide)) (by simpa using hs)
    have hnone := assetOf?_eq_none_iff.mpr
      (.inl (isExternal_of_dataScheme hdata) : LeadsNowhere table current (attributeReference h))
    exact Option.some_ne_none e (he.symm.trans hnone)

theorem dependsOnText_attributeReading (table : PathTable) (current : String) :
    DependsOnText (attributeReading table current) := by
  intro h h' ht hg
  unfold attributeReading
  rw [ht, hg 1, hg 2, hg 3]

/-! ## Which calls stay -/

/-- No `url(...)` that is found in the text and touches the call leads to an asset. -/
def UrlsThereLeadNowhere (table : PathTable) (current before token after : String) : Prop :=
  ∀ h ∈ urlToken.pattern.hits (before ++ (token ++ after)), h.Touches token after →
    LeadsNowhere table current (urlReference h)

/-- No attribute that is found in the text and touches the call leads to an asset. -/
def AttributesThereLeadNowhere (table : PathTable) (current before token after : String) : Prop :=
  ∀ h ∈ assetReference.pattern.hits (before ++ (token ++ after)), h.Touches token after →
    LeadsNowhere table current (attributeReference h)

theorem stays_inlineStyle_iff {before token after : String}
    (htoken : token.toList.getLast? = some ')') : Stays (inlineStyle table current) before token after ↔
      UrlsThereLeadNowhere table current before token after :=
  ((writesAssets_styleReading table current).stays_iff (showsAssets_styleReading table current)
    urlToken_sectioned compact_urlToken (dependsOnText_styleReading table current) htoken).trans <|
    forall₂_congr fun _ _ => imp_congr_right fun _ => assetOf?_eq_none_iff

theorem stays_attributed_iff {before token after : String}
    (htoken : token.toList.getLast? = some ')') : Stays (attributed table current) before token after ↔
      AttributesThereLeadNowhere table current before token after :=
  ((writesAssets_attributeReading table current).stays_iff
    (showsAssets_attributeReading table current) assetReference_sectioned compact_assetReference
    (dependsOnText_attributeReading table current) htoken).trans <|
    forall₂_congr fun _ _ => imp_congr_right fun _ => assetOf?_eq_none_iff

/-- In a style sheet a call stays as it is exactly when no `url(...)` found there leads to an asset,
whatever stands before it. In markup no attribute found there may lead to an asset either: then the
first pass keeps the call, with some text `rest` behind it, and the second pass keeps it as in a style
sheet. -/
theorem call_stays_iff {token : String} (hcall : IsCall token) (table : PathTable)
    (current before after : String) :
    (Stays (inlineStyle table current) before token after ↔
      UrlsThereLeadNowhere table current before token after) ∧
    (Stays (attributed table current) before token after ↔
      AttributesThereLeadNowhere table current before token after) ∧
    ∀ rest, attributed table current (before ++ (token ++ after)) =
        attributed table current before ++ (token ++ rest) →
      (Stays (inlineMarkup table current) before token after ↔
        UrlsThereLeadNowhere table current (attributed table current before) token rest) := by
  have htoken := hcall.getLast?
  refine ⟨stays_inlineStyle_iff htoken, stays_attributed_iff htoken, fun rest hrest => ?_⟩
  have hmarkup (markup : String) : inlineMarkup table current markup =
      inlineStyle table current (attributed table current markup) := rfl
  rw [← stays_inlineStyle_iff htoken, Stays, Stays, hmarkup, hmarkup, hrest]

/-- A call whose argument names no file stays. -/
theorem call_stays_iff_unknownFile :
    IsCall "Url(\"b.png\")" ∧
      attributed pictured "index.html" ("<script>get" ++ ("Url(\"b.png\")" ++ "</script>")) =
        attributed pictured "index.html" "<script>get" ++ ("Url(\"b.png\")" ++ "</script>") ∧
      UrlsThereLeadNowhere pictured "index.html" (attributed pictured "index.html" "<script>get")
        "Url(\"b.png\")" "</script>" ∧
      Stays (inlineMarkup pictured "index.html") "<script>get" "Url(\"b.png\")" "</script>" := by
  have hcall : IsCall "Url(\"b.png\")" :=
    ⟨"Url(".toList, "\"b.png\"".toList, by decide, by decide⟩
  have hrest : attributed pictured "index.html" ("<script>get" ++ ("Url(\"b.png\")" ++ "</script>")) =
      attributed pictured "index.html" "<script>get" ++ ("Url(\"b.png\")" ++ "</script>") := by decide
  have hurls : UrlsThereLeadNowhere pictured "index.html"
      (attributed pictured "index.html" "<script>get") "Url(\"b.png\")" "</script>" := by
    unfold UrlsThereLeadNowhere Hit.Touches
    simp only [← assetOf?_eq_none_iff]
    decide
  have hiff := call_stays_iff hcall pictured "index.html" "<script>get" "</script>"
  exact ⟨hcall, hrest, hurls, (hiff.2.2 "</script>" hrest).mpr hurls⟩

/-- A character of a name in a script or a style sheet. -/
def isIdentifierChar (c : Char) : Bool := isWord c || c == '-' || c == '$'

/-- In a style sheet a call of `myurl`, and in a script one of `getUrl`, is rewritten. -/
theorem not_forall_call_stays :
    (¬ ∀ (table : PathTable) (current before token after : String) (c : Char),
      before.toList.getLast? = some c → isIdentifierChar c = true → IsCall token →
        Stays (inlineStyle table current) before token after) ∧
    ¬ ∀ (table : PathTable) (current before token after : String) (c : Char),
      before.toList.getLast? = some c → isIdentifierChar c = true → IsCall token →
        Stays (inlineMarkup table current) before token after := by
  constructor
  · intro h
    have hcall : IsCall "url(a.png)" := ⟨"url(".toList, "a.png".toList, by decide, by decide⟩
    have hstays := h pictured "style.css" "a\x7bb:my" "url(a.png)" "\x7d" 'y' (by decide) (by decide) hcall
    rw [Stays] at hstays
    revert hstays
    decide
  · intro h
    have hcall : IsCall "Url(\"a.png\")" := ⟨"Url(".toList, "\"a.png\"".toList, by decide, by decide⟩
    have hstays := h pictured "index.html" "<script>get" "Url(\"a.png\")" "</script>" 't' (by decide)
      (by decide) hcall
    rw [Stays] at hstays
    revert hstays
    decide

end Workbench.Page
