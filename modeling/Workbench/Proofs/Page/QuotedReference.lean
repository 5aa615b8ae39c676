import Mathlib.Data.List.TakeWhile
import Workbench.Proofs.Page.StyleAttribute
import Workbench.Proofs.Paths.Normal
import Workbench.Proofs.Text.Trim

/-!
# Quoted references to assets

The rules for attributes and for `url(...)` look for either quote at both ends of a reference, so a
reference between two quotes is read up to the first quote of any kind in it, and that of a `url(...)`
up to a closing bracket at the latest. A path that holds none of these is read whole and replaced; with
one of them the image or the `url(...)` does not become what it would be (`quoted_reference_inlined`).

* What is written for an attribute stays apart from the markup behind it, which is dealt with by itself
  (`toList_inlineMarkup_replaced`).
* An attribute or a `url(...)` that is not replaced begins as it did (`prefix_inlineMarkup_kept`,
  `prefix_inlineStyle_kept`), with a slash where a URL would begin with its scheme.
-/

namespace Workbench.Page

open Markup Pattern Script Text

variable {table : PathTable} {current p : String} {q c : Char} {e : PathTable.Entry}
  {r w x rest : List Char}

/-! ## The asset at a rooted reference -/

/-- The asset stands at the path, and the path can be written as a reference: its segments are names,
no query or fragment begins in it, and it does not end with a blank. -/
structure NamesAsset (table : PathTable) (p : String) (e : PathTable.Entry) : Prop where
  entry : table.at? p = some e
  role : e.kind.role = .asset
  normal : Paths.IsNormal p
  noQuery : '?' ∉ p.toList ∧ '#' ∉ p.toList
  solid : p.toList.getLast?.any isBlank = false

/-- The reference to a path from the root. -/
def rooted (p : String) : String := "/" ++ p

theorem toList_rooted (p : String) : (rooted p).toList = '/' :: p.toList := by
  rw [rooted, String.toList_append]
  rfl

theorem trim_rooted (h : p.toList.getLast?.any isBlank = false) :
    trim (rooted p) = rooted p := by
  refine trim_eq_self ?_ ?_
  · intro c hc
    rw [toList_rooted] at hc
    obtain rfl := Option.some.inj hc
    decide
  · intro c hc
    rw [toList_rooted, List.getLast?_cons] at hc
    cases hlast : p.toList.getLast? with
    | none =>
      rw [hlast] at hc
      obtain rfl := Option.some.inj hc
      decide
    | some d =>
      rw [hlast] at hc h
      obtain rfl := Option.some.inj hc
      exact h

theorem isExternal_rooted (hp : Paths.IsRelative p) : isExternal (rooted p) = false := by
  by_contra hn
  have hlist : rooted p = String.ofList ('/' :: p.toList) := by
    rw [← String.toList_inj, toList_rooted, String.toList_ofList]
  rw [hlist, Bool.not_eq_false, isExternal_iff] at hn
  have hslash : isBlank '/' = false := by decide
  rcases hn with hblank | ⟨b, x, y, hsplit, hb, start, hstart, hx⟩
  · exact absurd (hblank '/' List.mem_cons_self) (by simp [hslash])
  · cases b with
    | cons c b =>
      obtain ⟨rfl, -⟩ := List.cons.inj hsplit
      exact absurd (hb '/' List.mem_cons_self) (by simp [hslash])
    | nil =>
      -- a slash begins only the one start that goes on with another
      have hshape : ∀ start ∈ externalStarts, start.toList = ['/', '/'] ∨
        start.toList.head?.any (· != '/') = true := by decide
      have hlower := congrArg (List.map Char.toLower) hsplit
      rw [List.nil_append, List.map_append, hx] at hlower
      rcases hshape start hstart with hslashes | hother
      · rw [hslashes] at hlower
        have hhead : (p.toList.map Char.toLower).head? = some '/' :=
          congrArg List.head? (List.cons.inj hlower).2
        rw [List.head?_map] at hhead
        obtain ⟨d, hd, hlow⟩ := Option.map_eq_some_iff.mp hhead
        exact hp (eq_of_toLower_eq (by decide) hlow ▸ hd)
      · cases hlist : start.toList with
        | nil => simp [hlist] at hother
        | cons d l =>
          rw [hlist] at hlower hother
          have hd : d = '/' := (List.cons.inj hlower).1.symm
          simp [hd] at hother

theorem withoutQuery_rooted (h : '?' ∉ p.toList ∧ '#' ∉ p.toList) :
    withoutQuery (rooted p) = rooted p := by
  have hall : ∀ c ∈ (rooted p).toList, (c != '?' && c != '#') = true := by
    intro c hc
    rw [toList_rooted] at hc
    rw [Bool.and_eq_true, bne_iff_ne, bne_iff_ne]
    rcases List.mem_cons.mp hc with rfl | hc
    · decide
    · exact ⟨fun hn => h.1 (hn ▸ hc), fun hn => h.2 (hn ▸ hc)⟩
  rw [withoutQuery, List.takeWhile_eq_self_iff.mpr hall, String.ofList_toList]

theorem resolve_rooted (current p : String) : Paths.resolve current (rooted p) = p := by
  rw [Paths.resolve, toList_rooted, Paths.resolveChars, String.ofList_toList]

theorem NamesAsset.assetOf? (h : NamesAsset table p e) : assetOf? table current (rooted p) = some e := by
  have hlookup : table.lookup? p = some e := by
    rw [PathTable.lookup?, h.entry]
  rw [Page.assetOf?, isExternal_rooted h.normal.isRelative, if_neg Bool.false_ne_true,
    withoutQuery_rooted h.noQuery, resolve_rooted, assetAt?, hlookup]
  simp [h.role]

/-! ## An attribute behind the name of its tag -/

/-- The beginning of an image. -/
def imageOpening : List Char := ['<', 'i', 'm', 'g']

theorem toList_attributed_image (a : AttributeParts) (x : List Char) :
    (attributed table current (String.ofList (imageOpening ++ (a.text ++ x)))).toList =
      imageOpening ++ (attributeReading table current (a.hit x) ++
        (attributed table current (String.ofList x)).toList) := by
  have hpass (y z : List Char) (h : imageOpening = y ++ z) (hz : z ≠ []) :
      assetReference.pattern.readAt none (z ++ (String.ofList (a.text ++ x)).toList) = none :=
    readAt_assetReference_eq_none (by decide) h hz
  have hread : assetReference.pattern.readAt none (String.ofList (a.text ++ x)).toList =
      some (a.hit x) := by
    rw [String.toList_ofList]
    exact a.readAt_text none x
  rw [attributed, String.ofList_append, replace_gaps_append assetReference_sectioned _ hpass,
    String.toList_append, String.toList_ofList, replace_of_readAt assetReference_sectioned _ hread]
  rfl

/-- Where no `u` stands a style sheet or markup is as it was. -/
theorem toList_inlineStyle_append (hw : w.any (foldsTo 'u') = false) (x : List Char) :
    (inlineStyle table current (String.ofList (w ++ x))).toList =
      w ++ (inlineStyle table current (String.ofList x)).toList := by
  have hpass (y z : List Char) (h : w = y ++ z) (hz : z ≠ []) :
      urlToken.pattern.readAt none (z ++ (String.ofList x).toList) = none :=
    readAt_urlToken_eq_none hw h hz
  rw [inlineStyle, String.ofList_append, replace_gaps_append urlToken_sectioned _ hpass,
    String.toList_append, String.toList_ofList]
  rfl

/-- An attribute that is replaced is written with its URL, and the markup behind it is dealt with by
itself. -/
theorem toList_inlineMarkup_replaced {a : AttributeParts}
    (he : assetOf? table current (String.ofList a.reference) = some e) (hb : e.content.IsWellEncoded)
    (x : List Char) :
    (inlineMarkup table current (String.ofList (imageOpening ++ (a.text ++ x)))).toList =
      imageOpening ++ ((a.blank :: a.name) ++ '=' :: [a.opening] ++ e.dataUrl.toList ++ [a.opening] ++
        (inlineMarkup table current (String.ofList x)).toList) := by
  have hplain := isPlain_of_mem_dataUrl hb
  have ha := isAttribute_of_readAt (a.readAt_text none x) e.dataUrl.toList
    (fun hm => absurd (hplain _ hm) (by decide)) (fun hm => absurd (hplain _ hm) (by decide))
  have hwrite : attributeReading table current (a.hit x) =
      (a.blank :: a.name) ++ '=' :: [a.opening] ++ e.dataUrl.toList ++ [a.opening] := by
    rw [← a.groupText_three x] at he
    rw [attributeReading_of_some he, a.groupText_one, a.groupText_two]
  rw [a.groupText_one, a.groupText_two] at ha
  have himage : inlineStyle table current (String.ofList imageOpening) = String.ofList imageOpening :=
    replace_of_not_occursIn (by decide) _
  rw [inlineMarkup, ← attributed, ← String.ofList_toList (s := attributed _ _ _),
    toList_attributed_image, hwrite, toList_inlineStyle_attribute ha, himage, String.toList_ofList,
    String.ofList_toList]
  rfl

/-- Something is written for a text before the end of a tag, and the end stays. -/
theorem exists_inlineMarkup_append (table : PathTable) (current : String) (hx : x ≠ []) :
    ∃ w, w ≠ [] ∧
      (inlineMarkup table current (String.ofList (x ++ ['>']))).toList = w ++ ['>'] := by
  obtain ⟨v, hv, hattributed⟩ := exists_replace_append (p := assetReference.pattern) rfl
    (endsOutside_assetReference (t := ['>']) (by decide))
    ((writesAssets_attributeReading table current).ne_nil rfl)
    (String.toList_ofList (l := x ++ ['>'])) hx
  exact exists_replace_append (p := urlToken.pattern) rfl (endsOutside_urlToken (by decide))
    ((writesAssets_styleReading table current).ne_nil rfl) hattributed hv

/-! ## The source of an image -/

/-- An image with a quoted source. -/
def imageTag (q : Char) (source : String) : String :=
  "<img src=" ++ String.ofList (q :: (source.toList ++ [q, '>']))

/-- The source attribute that is read in an image. -/
def sourceParts (hq : isQuote q = true) (hc : isQuote c = true) (hr : ∀ d ∈ r, isQuote d = false) :
    AttributeParts where
  blank := ' '
  name := ['s', 'r', 'c']
  before := []
  after := []
  opening := q
  reference := r
  closing := c
  blank_blank := by decide
  name_folds := ⟨"src", by decide, by decide⟩
  before_blank := fun _ h => absurd h List.not_mem_nil
  after_blank := fun _ h => absurd h List.not_mem_nil
  opening_quote := hq
  reference_plain := hr
  closing_quote := hc

theorem toList_imageTag {source : String} (hq : isQuote q = true) (hc : isQuote c = true)
    (hr : ∀ d ∈ r, isQuote d = false) (hs : source.toList ++ [q, '>'] = r ++ c :: rest) :
    (imageTag q source).toList = imageOpening ++ ((sourceParts hq hc hr).text ++ rest) := by
  rw [imageTag, String.toList_append, String.toList_ofList, hs]
  simp [sourceParts, AttributeParts.text, AttributeParts.unclosed, imageOpening]

theorem inlineMarkup_bracket : inlineMarkup table current ">" = ">" := by
  have hattributed : attributed table current ">" = ">" := replace_of_not_occursIn (by decide) _
  rw [inlineMarkup, ← attributed, hattributed]
  exact replace_of_not_occursIn (by decide) _

/-- A source without quotes that names an asset is replaced by the URL of the asset. -/
theorem inlineMarkup_imageTag {source : String} (hq : isQuote q = true)
    (hr : ∀ d ∈ source.toList, isQuote d = false) (he : assetOf? table current source = some e)
    (hb : e.content.IsWellEncoded) :
    inlineMarkup table current (imageTag q source) = imageTag q e.dataUrl := by
  have hplain : ∀ d ∈ e.dataUrl.toList, isQuote d = false := by
    intro d hd
    have hd := isPlain_of_mem_dataUrl hb d hd
    simp only [isPlain, Bool.and_eq_true, bne_iff_ne] at hd
    simp [isQuote, hd]
  have himage := toList_imageTag hq hq hr rfl
  have href : String.ofList (sourceParts hq hq hr).reference = source := String.ofList_toList
  rw [← href] at he
  rw [← String.toList_inj, ← String.ofList_toList (s := imageTag q source), himage,
    toList_inlineMarkup_replaced he hb, toList_imageTag hq hq hplain rfl]
  have hbracket : inlineMarkup table current (String.ofList ['>']) = ">" := inlineMarkup_bracket
  rw [hbracket]
  simp [sourceParts, AttributeParts.text, AttributeParts.unclosed]

/-- An attribute that is kept begins as it did, up to the reference in it. -/
theorem prefix_inlineMarkup_kept {a : AttributeParts}
    (he : assetOf? table current (String.ofList a.reference) = none) (hw : w <+: a.text)
    (hu : w.any (foldsTo 'u') = false) (x : List Char) :
    imageOpening ++ w <+:
      (inlineMarkup table current (String.ofList (imageOpening ++ (a.text ++ x)))).toList := by
  obtain ⟨v, hv⟩ := hw
  have hread : attributeReading table current (a.hit x) = w ++ v := by
    rw [← a.groupText_three x] at he
    rw [attributeReading_of_none he, hv]
    rfl
  have himage : imageOpening.any (foldsTo 'u') = false := rfl
  have hopening : (imageOpening ++ w).any (foldsTo 'u') = false := by
    rw [List.any_append, himage, hu, Bool.or_false]
  rw [inlineMarkup, ← attributed, ← String.ofList_toList (s := attributed _ _ _),
    toList_attributed_image, hread, List.append_assoc, ← List.append_assoc imageOpening,
    toList_inlineStyle_append hopening]
  exact List.prefix_append _ _

theorem notMem_dataUrl (hq : isQuote q = true) (hb : e.content.IsWellEncoded) :
    q ∉ e.dataUrl.toList := by
  intro hm
  have hplain := isPlain_of_mem_dataUrl hb q hm
  rcases isQuote_iff.mp hq with rfl | rfl <;> exact absurd hplain (by decide)

/-- The quote behind the URL of an asset is the first one, so what stands behind it is told apart. -/
theorem eq_of_dataUrl_append {e' : PathTable.Entry} {y : List Char} (hq : isQuote q = true)
    (hb : e.content.IsWellEncoded) (hx : q ∉ x)
    (h : e.dataUrl.toList ++ q :: x = e'.dataUrl.toList ++ q :: y) : x = y := by
  obtain ⟨-, -, hend⟩ := (List.append_cons_inj_of_notMem (notMem_dataUrl hq hb) hx).mp h
  exact hend

theorem notMem_bracket (hq : isQuote q = true) : q ∉ ['>'] := by
  rcases isQuote_iff.mp hq with rfl | rfl <;> decide

/-- The beginning of a source attribute, with the quote before its reference. -/
def sourceOpening (q : Char) : List Char := [' ', 's', 'r', 'c', '=', q]

theorem toList_imageTag_opening (q : Char) (source : String) :
    (imageTag q source).toList =
      imageOpening ++ (sourceOpening q ++ (source.toList ++ q :: ['>'])) := by
  simp [imageTag, imageOpening, sourceOpening]

/-- An image whose source is kept up to the first quote in it does not hold the URL of an asset. -/
theorem inlineMarkup_imageTag_ne_of_kept (hq : isQuote q = true) (hc : isQuote c = true)
    (hr : ∀ d ∈ '/' :: r, isQuote d = false)
    (hs : (rooted p).toList ++ [q, '>'] = '/' :: r ++ c :: rest)
    (he : assetOf? table current (String.ofList ('/' :: r)) = none) (e : PathTable.Entry) :
    inlineMarkup table current (imageTag q (rooted p)) ≠ imageTag q e.dataUrl := by
  intro h
  have hbegins : sourceOpening q ++ ['/'] <+: (sourceParts hq hc hr).text :=
    ⟨r ++ [c], by simp [sourceOpening, sourceParts, AttributeParts.text, AttributeParts.unclosed]⟩
  have hu : (sourceOpening q ++ ['/']).any (foldsTo 'u') = false := by
    rcases isQuote_iff.mp hq with rfl | rfl <;> decide
  have hprefix := prefix_inlineMarkup_kept (a := sourceParts hq hc hr) he hbegins hu rest
  obtain ⟨u, hd⟩ := exists_dataUrl_cons e
  rw [← toList_imageTag hq hc hr hs, String.ofList_toList, h, toList_imageTag_opening,
    List.prefix_append_right_inj, List.prefix_append_right_inj, hd] at hprefix
  exact absurd (List.cons_prefix_cons.mp hprefix).1 (by decide)

/-- An image whose source is replaced up to a quote in it still holds what stands behind the quote. -/
theorem inlineMarkup_imageTag_ne_of_replaced {e' : PathTable.Entry} (hq : isQuote q = true)
    (hc : isQuote c = true) (hr : ∀ d ∈ '/' :: r, isQuote d = false)
    (hs : (rooted p).toList ++ [q, '>'] = '/' :: r ++ c :: (x ++ ['>'])) (hx : x ≠ [])
    (he : assetOf? table current (String.ofList ('/' :: r)) = some e')
    (hb' : e'.content.IsWellEncoded) (hb : e.content.IsWellEncoded) :
    inlineMarkup table current (imageTag q (rooted p)) ≠ imageTag q e.dataUrl := by
  intro h
  obtain ⟨v, hv, htail⟩ := exists_inlineMarkup_append table current hx
  have hlist := toList_inlineMarkup_replaced (a := sourceParts hq hc hr) he hb' (x ++ ['>'])
  rw [← toList_imageTag hq hc hr hs, String.ofList_toList, h, toList_imageTag_opening, htail] at hlist
  have hcut : e.dataUrl.toList ++ q :: ['>'] = e'.dataUrl.toList ++ q :: (v ++ ['>']) := by
    simpa [sourceOpening, sourceParts] using hlist
  have hnil : [] ++ ['>'] = v ++ ['>'] := eq_of_dataUrl_append hq hb (notMem_bracket hq) hcut
  exact hv (List.append_cancel_right hnil).symm

/-- An image that holds the URL of an asset after its assets were put in had no quote in its source. -/
theorem not_isQuote_of_inlineMarkup_imageTag (hw : WellEncoded table) (hq : isQuote q = true)
    (hb : e.content.IsWellEncoded)
    (h : inlineMarkup table current (imageTag q (rooted p)) = imageTag q e.dataUrl) :
    ∀ d ∈ p.toList, isQuote d = false := by
  by_contra hn
  obtain ⟨r, c, y, hp, hc, hr⟩ := exists_first hn
  have hr : ∀ d ∈ '/' :: r, isQuote d = false := List.forall_mem_cons.mpr ⟨by decide, hr⟩
  have hs : (rooted p).toList ++ [q, '>'] = '/' :: r ++ c :: (y ++ [q] ++ ['>']) := by
    simp [toList_rooted, hp]
  cases he : assetOf? table current (String.ofList ('/' :: r)) with
  | none => exact inlineMarkup_imageTag_ne_of_kept hq hc hr hs he e h
  | some e' =>
    exact inlineMarkup_imageTag_ne_of_replaced hq hc hr hs (by simp) he
      (hw e' (mem_entries_of_assetOf? he)) hb h

/-! ## A quoted `url(...)` -/

/-- A `url(...)` with a quoted reference. -/
def quotedUrl (q : Char) (reference : String) : String :=
  "url(" ++ String.ofList (q :: (reference.toList ++ [q, ')']))

/-- The beginning of a `url(...)`, with the quote before its reference. -/
def urlOpening (q : Char) : List Char := ['u', 'r', 'l', '(', q]

theorem toList_quotedUrl (q : Char) (reference : String) :
    (quotedUrl q reference).toList = urlOpening q ++ (reference.toList ++ [q, ')']) := by
  simp [quotedUrl, urlOpening]

theorem prefers_quotedUrl {last : Option Char} (hq : isQuote q = true)
    (hr : ∀ d ∈ r, isQuote d = false ∧ d ≠ ')') (hne : r ≠ []) :
    urlToken.pattern.Prefers last (urlOpening q ++ (r ++ [q, ')'])) rest
      [⟨2, r ++ q :: ')' :: rest, r.length⟩, ⟨1, q :: (r ++ q :: ')' :: rest), 1⟩] := by
  have hblank : isBlank q = false := isBlank_eq_false_of_isQuote hq
  have hok : ∀ d ∈ r, (!isQuote d && d != ')') = true := fun d hd => by simp [hr d hd]
  obtain ⟨d, v, rfl⟩ := List.exists_cons_of_ne_nil hne
  rw [List.forall_mem_cons] at hok
  have hopening (last : Option Char) : (group 1 (optional (char isQuote))).Prefers last [q]
      (d :: v ++ [q, ')'] ++ rest) _ := .group 1 (.left (.char hq))
  have hreference (last : Option Char) : (group 2 (some1 fun c => !isQuote c && c != ')')).Prefers last
      (d :: v) ([q, ')'] ++ rest) _ :=
    .group 2 (.some1 hok.1 hok.2 (stops_cons.mpr (by simp [hq])))
  have hclosing (last : Option Char) : (all [optional (char isQuote), gap, this ')']).Prefers last
      [q, ')'] rest [] :=
    .andThen (u := [q]) (.left (.char hq)) <|
      .andThen (u := []) (.many_nil (stops_cons.mpr (by decide))) (.char rfl)
  have hread : urlToken.pattern.Prefers last
      (['u', 'r', 'l', '('] ++ ([] ++ ([q] ++ (d :: v ++ [q, ')'])))) rest _ :=
    .andThen (.anyCase (by decide)) <| .andThen (.many_nil (stops_cons.mpr hblank)) <|
      (hopening _).seq ((hreference _).seq (hclosing _))
  simpa [urlOpening] using hread

/-- A reference without quotes and closing brackets that names an asset is replaced by the URL of the
asset. -/
theorem inlineStyle_quotedUrl {reference : String} (hq : isQuote q = true)
    (hr : ∀ d ∈ reference.toList, isQuote d = false ∧ d ≠ ')') (hne : reference ≠ "")
    (he : assetOf? table current (trim reference) = some e) :
    inlineStyle table current (quotedUrl q reference) = "url(\"" ++ e.dataUrl ++ "\")" := by
  have hne : reference.toList ≠ [] := fun h => hne (String.toList_inj.mp h)
  obtain ⟨h, hread, hgroup, hafter⟩ : ∃ h, urlToken.pattern.readAt none (quotedUrl q reference).toList =
      some h ∧ h.groupText 2 = reference.toList ∧ h.after = [] := by
    have hprefers : urlToken.pattern.Prefers none _ [] _ := prefers_quotedUrl hq hr hne
    have hread := readAt_of_prefers hprefers
    rw [List.append_nil, ← toList_quotedUrl] at hread
    exact ⟨_, hread, by simp [Hit.groupText, Hit.group?], rfl⟩
  have hasset : assetIn? table current h = some e := by
    rw [assetIn?, hgroup, String.ofList_toList, he]
  have hempty : urlToken.pattern.replace (styleReading table current) (String.ofList []) = "" :=
    replace_of_not_occursIn (occursIn_empty rfl) _
  rw [← String.toList_inj, inlineStyle, replace_of_readAt urlToken_sectioned _ hread, hafter, hempty,
    styleReading_of_some hasset, String.toList_empty, List.append_nil]

/-- What is found is the whole of a quoted `url(...)` only if its reference holds no quote and no closing
bracket. -/
theorem forall_of_reads_quotedUrl {last : Option Char} (hq : isQuote q = true)
    (h : urlToken.pattern.Reads last (urlOpening q ++ (r ++ [q, ')'])) rest) :
    ∀ d ∈ r, isQuote d = false ∧ d ≠ ')' := by
  have hquotes : r.countP isQuote = 0 := by
    obtain ⟨a, ha⟩ := UrlParts.exists_of_reads h
    have hhead := a.countP_head
    have hopening := a.opening_mark.countP_le
    have htail := a.countP_tail_le
    have hcount := congrArg (List.countP isQuote) ha
    have hurl : (urlOpening q).countP isQuote = 1 ∧ [q, ')'].countP isQuote = 1 := by
      rcases isQuote_iff.mp hq with rfl | rfl <;> exact ⟨rfl, rfl⟩
    rw [UrlParts.text, List.countP_append, List.countP_append, List.countP_append,
      List.countP_append, hurl.1, hurl.2] at hcount
    omega
  obtain ⟨v, hv, hbracket⟩ := exists_of_reads_urlToken h
  have hv : urlOpening q ++ (r ++ [q]) ++ [')'] = v ++ [')'] := by simpa using hv
  obtain rfl := List.append_cancel_right hv
  intro d hd
  refine ⟨by simpa using List.countP_eq_zero.mp hquotes d hd, ?_⟩
  rintro rfl
  exact hbracket (by simp [hd])

/-- Where nothing is found or what is found is kept, the sheet begins as it did. -/
theorem prefix_inlineStyle_kept {css : String} (hw : urlOpening q ++ ['/'] <+: css.toList)
    (hq : isQuote q = true)
    (hkept : ∀ h, urlToken.pattern.readAt none css.toList = some h → assetIn? table current h = none) :
    urlOpening q ++ ['/'] <+: (inlineStyle table current css).toList := by
  have hu : (['r', 'l', '(', q] ++ ['/']).any (foldsTo 'u') = false := by
    rcases isQuote_iff.mp hq with rfl | rfl <;> rfl
  have hbracket : ')' ∉ urlOpening q ++ ['/'] := by
    rcases isQuote_iff.mp hq with rfl | rfl <;> decide
  cases hread : urlToken.pattern.readAt none css.toList with
  | none =>
    obtain ⟨x, hx⟩ := hw
    have hpass (a b : List Char) (h : urlOpening q ++ ['/'] = a ++ b) (hb : b ≠ []) :
        urlToken.pattern.readAt none (b ++ (String.ofList x).toList) = none := by
      rw [String.toList_ofList]
      cases a with
      | nil =>
        obtain rfl : urlOpening q ++ ['/'] = b := h
        rwa [hx]
      | cons d a =>
        exact readAt_urlToken_eq_none hu (List.cons.inj h).2 hb
    have hlist := replace_gaps_append urlToken_sectioned (styleReading table current) hpass
    rw [← String.ofList_append, hx, String.ofList_toList] at hlist
    rw [inlineStyle, hlist, String.toList_append, String.toList_ofList]
    exact List.prefix_append _ _
  | some h =>
    obtain ⟨hcss, hreads⟩ := reads_of_readAt hread
    obtain ⟨v, hv, -⟩ := exists_of_reads_urlToken hreads
    have hlonger : urlOpening q ++ ['/'] <+: h.text := by
      refine (List.prefix_or_prefix_of_prefix hw ⟨h.after, hcss.symm⟩).resolve_right fun hshort => ?_
      exact hbracket (hshort.subset (by simp [hv]))
    rw [inlineStyle, replace_of_readAt urlToken_sectioned _ hread, styleReading_of_none (hkept h hread)]
    exact hlonger.trans (List.prefix_append _ _)

/-- A `url(...)` that holds the URL of an asset after its assets were put in had no quote and no
closing bracket in its reference: what stands behind it would have stayed in the sheet. -/
theorem forall_of_inlineStyle_quotedUrl (hq : isQuote q = true) (hb : e.content.IsWellEncoded)
    (h : inlineStyle table current (quotedUrl q (rooted p)) = "url(\"" ++ e.dataUrl ++ "\")") :
    ∀ d ∈ p.toList, isQuote d = false ∧ d ≠ ')' := by
  have hcss := toList_quotedUrl q (rooted p)
  rw [toList_rooted] at hcss
  have hurl : ("url(\"" ++ e.dataUrl ++ "\")").toList =
      ['u', 'r', 'l', '(', '"'] ++ (e.dataUrl.toList ++ '"' :: [')']) := by simp
  by_cases hkept : ∀ h, urlToken.pattern.readAt none (quotedUrl q (rooted p)).toList = some h →
      assetIn? table current h = none
  · have hprefix := prefix_inlineStyle_kept (hcss ▸ ⟨p.toList ++ [q, ')'], by simp⟩) hq hkept
    obtain ⟨u, hd⟩ := exists_dataUrl_cons e
    rw [h, hurl, hd] at hprefix
    simp [urlOpening] at hprefix
  · push Not at hkept
    obtain ⟨hit, hread, hsome⟩ := hkept
    obtain ⟨hsplit, hreads⟩ := reads_of_readAt hread
    obtain ⟨e', he⟩ := Option.ne_none_iff_exists'.mp hsome
    by_cases hafter : hit.after = []
    · rw [hafter, List.append_nil] at hsplit
      rw [← hsplit, hcss] at hreads
      exact (List.forall_mem_cons.mp (forall_of_reads_quotedUrl hq hreads)).2
    · -- the text behind the token is written too, behind the closing bracket of the first URL
      exfalso
      obtain ⟨w, hw, hrest⟩ := exists_replace_append (p := urlToken.pattern) rfl
        (endsOutside_urlToken (t := []) List.not_mem_nil)
        ((writesAssets_styleReading table current).ne_nil rfl)
        (String.toList_ofList.trans (List.append_nil hit.after).symm) hafter
      have hlist := congrArg String.toList h
      rw [inlineStyle, replace_of_readAt urlToken_sectioned _ hread, hrest, styleReading_of_some he,
        hurl] at hlist
      have hcut : e.dataUrl.toList ++ '"' :: [')'] = e'.dataUrl.toList ++ '"' :: (')' :: w) := by
        simpa using hlist.symm
      have hend := eq_of_dataUrl_append (q := '"') rfl hb (by decide) hcut
      exact hw (List.cons.inj hend).2.symm

/-! ## Which references are replaced -/

/-- The source of an image, written between these quotes, is replaced by the URL of the asset. -/
def ImageInlined (table : PathTable) (current : String) (q : Char) (p : String)
    (e : PathTable.Entry) : Prop :=
  inlineMarkup table current (imageTag q (rooted p)) = imageTag q e.dataUrl

/-- The reference of a `url(...)`, written between these quotes, is replaced by the URL of the asset. -/
def UrlInlined (table : PathTable) (current : String) (q : Char) (p : String)
    (e : PathTable.Entry) : Prop :=
  inlineStyle table current (quotedUrl q (rooted p)) = "url(\"" ++ e.dataUrl ++ "\")"

theorem NamesAsset.mem_entries (h : NamesAsset table p e) : e ∈ table.entries :=
  List.mem_of_find?_eq_some h.entry

theorem NamesAsset.imageInlined (h : NamesAsset table p e) (hq : isQuote q = true)
    (hp : ∀ d ∈ p.toList, isQuote d = false) (hb : e.content.IsWellEncoded) :
    ImageInlined table current q p e := by
  refine inlineMarkup_imageTag hq ?_ h.assetOf? hb
  rw [toList_rooted, List.forall_mem_cons]
  exact ⟨by decide, hp⟩

theorem NamesAsset.urlInlined (h : NamesAsset table p e) (hq : isQuote q = true)
    (hp : ∀ d ∈ p.toList, isQuote d = false ∧ d ≠ ')') : UrlInlined table current q p e := by
  refine inlineStyle_quotedUrl hq ?_ ?_ ?_
  · rw [toList_rooted, List.forall_mem_cons]
    exact ⟨by decide, hp⟩
  · intro hn
    have hlist := congrArg String.toList hn
    rw [toList_rooted] at hlist
    cases hlist
  · rw [trim_rooted h.solid]
    exact h.assetOf?

/-- A reference to an asset between two quotes is replaced if the path of the asset holds neither of
the two quotes and, in a `url(...)`, no closing bracket; in markup the content of the asset must be
base64, for the URL is looked through once more. No other such references are replaced. -/
theorem quoted_reference_inlined (h : NamesAsset table p e) (hq : isQuote q = true) (current : String) :
    ((∀ d ∈ p.toList, isQuote d = false) → e.content.IsWellEncoded →
      ImageInlined table current q p e) ∧
    ((∀ d ∈ p.toList, isQuote d = false ∧ d ≠ ')') → UrlInlined table current q p e) ∧
    (WellEncoded table →
      (ImageInlined table current q p e ↔ ∀ d ∈ p.toList, isQuote d = false) ∧
      (UrlInlined table current q p e ↔ ∀ d ∈ p.toList, isQuote d = false ∧ d ≠ ')')) := by
  refine ⟨fun hp hb => h.imageInlined hq hp hb, fun hp => h.urlInlined hq hp, fun hw => ?_⟩
  have hb : e.content.IsWellEncoded := hw e h.mem_entries
  constructor
  · exact ⟨not_isQuote_of_inlineMarkup_imageTag hw hq hb, fun hp => h.imageInlined hq hp hb⟩
  · exact ⟨forall_of_inlineStyle_quotedUrl hq hb, fun hp => h.urlInlined hq hp⟩

theorem namesAsset_pictured : NamesAsset pictured "a.png" ⟨"a.png", .image, .payload "AAAA"⟩ :=
  ⟨by decide, rfl, .inr (by decide), by decide, by decide⟩

theorem quoted_reference_inlined_pictured :
    NamesAsset pictured "a.png" ⟨"a.png", .image, .payload "AAAA"⟩ ∧ isQuote '\'' = true ∧
      ImageInlined pictured "pages/index.html" '\'' "a.png" ⟨"a.png", .image, .payload "AAAA"⟩ ∧
      UrlInlined pictured "pages/index.html" '\'' "a.png" ⟨"a.png", .image, .payload "AAAA"⟩ := by
  obtain ⟨-, -, hiff⟩ := quoted_reference_inlined (q := '\'') namesAsset_pictured rfl "pages/index.html"
  obtain ⟨himage, hurl⟩ := hiff wellEncoded_pictured
  exact ⟨namesAsset_pictured, rfl, himage.mpr (by simp [isQuote]), hurl.mpr (by simp [isQuote])⟩

/-- The path stands on one line without a blank at its beginning, and the quotes around it are none of
its characters. -/
structure IsQuotable (q : Char) (p : String) : Prop where
  quote : isQuote q = true
  unquoted : q ∉ p.toList
  oneLine : '\n' ∉ p.toList ∧ '\r' ∉ p.toList
  solid : p.toList.head?.any isBlank = false

/-- Quotes around a path are not enough: the other quote in it ends an attribute, a closing bracket in
it ends a `url(...)`, and a `url(...)` in a payload that is no base64 text is replaced as well. -/
theorem not_forall_inlined :
    (¬ ∀ (table : PathTable) (current : String) (q : Char) (p : String) (e : PathTable.Entry),
      NamesAsset table p e → IsQuotable q p → ImageInlined table current q p e) ∧
    (¬ ∀ (table : PathTable) (current : String) (q : Char) (p : String) (e : PathTable.Entry),
      NamesAsset table p e → IsQuotable q p → (∀ d ∈ p.toList, isQuote d = false) →
        UrlInlined table current q p e) ∧
    ¬ ∀ (table : PathTable) (current : String) (q : Char) (p : String) (e : PathTable.Entry),
      NamesAsset table p e → IsQuotable q p → (∀ d ∈ p.toList, isQuote d = false) →
        ImageInlined table current q p e := by
  refine ⟨fun h => ?_, fun h => ?_, fun h => ?_⟩
  · have himage := h (.ofFiles [.new 0 "it's.png" .image (.payload "AAAA")]) "" '"' "it's.png"
      ⟨"it's.png", .image, .payload "AAAA"⟩ ⟨by decide, rfl, .inr (by decide), by decide, by decide⟩
      ⟨rfl, by decide, by decide, by decide⟩
    unfold ImageInlined at himage
    exact absurd himage (by decide)
  · have hurl := h (.ofFiles [.new 0 "a(1).png" .image (.payload "AAAA")]) "" '"' "a(1).png"
      ⟨"a(1).png", .image, .payload "AAAA"⟩ ⟨by decide, rfl, .inr (by decide), by decide, by decide⟩
      ⟨rfl, by decide, by decide, by decide⟩ (by simp [isQuote])
    unfold UrlInlined at hurl
    exact absurd hurl (by decide)
  · have himage := h (.ofFiles [.new 0 "a.png" .image (.payload "url(b.png)"),
        .new 1 "b.png" .image (.payload "AAAA")]) "" '"' "a.png"
      ⟨"a.png", .image, .payload "url(b.png)"⟩ ⟨by decide, rfl, .inr (by decide), by decide, by decide⟩
      ⟨rfl, by decide, by decide, by decide⟩ (by simp [isQuote])
    unfold ImageInlined at himage
    exact absurd himage (by decide)

end Workbench.Page
