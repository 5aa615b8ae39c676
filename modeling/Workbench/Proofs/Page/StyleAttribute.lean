import Mathlib.Data.List.Infix
import Workbench.Proofs.Page.AssetReading

/-!
# An inline style in the page

A `url(...)` that is replaced is written with double quotes, whatever stands around it. In a style
attribute in double quotes the first of them ends the attribute (`not_forall_keepsStyle`). The
attribute is kept exactly when no `url(...)` in it is replaced, and no reference in it, opened by a
single quote and never closed, runs over its closing quote and is replaced together with it
(`keepsStyle_iff`).
-/

namespace Workbench.Page

open Markup Pattern

variable {table : PathTable} {current value : String} {last : Option Char} {s u v w t : List Char}
  {ps : List Piece} {h : Hit} {e : PathTable.Entry}

/-- The text of a tag before the value of its style. -/
def styleOpening : List Char := ['<', 'd', 'i', 'v', ' ', 's', 't', 'y', 'l', 'e', '=', '"']

/-- A tag with a style attribute in double quotes. -/
def styledTag (value : String) : String := String.ofList (styleOpening ++ (value.toList ++ ['"', '>']))

/-- The text is still a tag with nothing but a style attribute: no quote stands between the two quotes
around its value. -/
def KeepsStyle (markup : String) : Prop :=
  ∃ value : String, '"' ∉ value.toList ∧ markup = styledTag value

/-- A reference that is replaced ends with the double quote that closes the style attribute. -/
def RunsOver (table : PathTable) (current markup : String) : Prop :=
  ∃ h ∈ assetReference.pattern.hits markup, h.text.getLast? = some '"' ∧
    assetOf? table current (String.ofList (h.groupText 3)) ≠ none

/-- All payloads in the table are base64 text. -/
def WellEncoded (table : PathTable) : Prop := ∀ e ∈ table.entries, e.content.IsWellEncoded

/-! ## Where readings begin and end -/

theorem passes_urlToken_styleOpening (s : List Char) :
    urlToken.pattern.Passes none styleOpening s := fun _ _ hab hb =>
  readAt_urlToken_eq_none (by decide) hab hb

theorem passes_assetReference_styleOpening (s : List Char) :
    assetReference.pattern.Passes none styleOpening s := by
  intro a b hab hb
  refine readAt_eq_none.mpr fun w rest hw hr => ?_
  obtain ⟨p, rfl⟩ := AttributeParts.exists_of_reads hr
  -- the one blank is followed by `style`, which is none of the names
  have hblank : ∀ b ∈ styleOpening.tails, b.head?.any Text.isBlank = true →
      b = [' ', 's', 't', 'y', 'l', 'e', '=', '"'] := by decide
  obtain ⟨d, b, rfl⟩ := List.exists_cons_of_ne_nil hb
  have hd : d = p.blank := (List.cons.inj hw).1
  have hb := hblank _ ((List.mem_tails _ _).mpr ⟨a, hab.symm⟩) (hd ▸ p.blank_blank)
  rw [hb] at hw
  obtain ⟨c₁, c₂, name, hname, hletters⟩ := p.exists_name_eq
  rw [AttributeParts.text, AttributeParts.unclosed, hname] at hw
  have hw := (List.cons.inj hw).2
  obtain rfl := (List.cons.inj hw).1
  have hw := (List.cons.inj hw).2
  obtain rfl := (List.cons.inj hw).1
  exact absurd hletters (by decide)

/-! ## What is written -/

theorem quote_not_mem_dataUrl (hw : WellEncoded table) {reference : String}
    (h : assetOf? table current reference = some e) : '"' ∉ e.dataUrl.toList := fun hm =>
  absurd (isPlain_of_mem_dataUrl (hw e (mem_entries_of_assetOf? h)) _ hm) (by decide)

/-- Two double quotes are written for each `url(...)` that is replaced, and no other ones. -/
theorem count_quote_styled (hw : WellEncoded table) (hps : '"' ∉ ps.flatMap Piece.text) :
    (styled table current ps).count '"' =
      2 * (paired (assetIn? table current) (ps.filterMap Piece.hit?)).length := by
  induction ps with
  | nil => rfl
  | cons piece ps ih =>
    rw [List.flatMap_cons, List.mem_append, not_or] at hps
    obtain ⟨hpiece, hps⟩ := hps
    have hsplit : styled table current (piece :: ps) =
        Piece.write (styleReading table current) piece ++ styled table current ps := rfl
    rw [hsplit, List.count_append, ih hps]
    cases piece with
    | gap c =>
      have hc : [c].count '"' = 0 := List.count_eq_zero.mpr hpiece
      rw [Piece.write, hc, Nat.zero_add]
      rfl
    | hit h =>
      rw [Piece.write]
      cases he : assetIn? table current h with
      | none =>
        have hc : h.text.count '"' = 0 := List.count_eq_zero.mpr hpiece
        rw [styleReading_of_none he, hc]
        simp [paired, he, Piece.hit?]
      | some e =>
        have hc : e.dataUrl.toList.count '"' = 0 :=
          List.count_eq_zero.mpr (quote_not_mem_dataUrl hw he)
        rw [styleReading_of_some he]
        simp [paired, he, Piece.hit?, hc]
        omega

/-! ## The attributes in the value -/

/-- A reference that is replaced keeps its opening quote alone, so it is written without a double quote
if no double quote stands before its end. -/
theorem quote_not_mem_attributeReading (hw : WellEncoded table)
    (hr : assetReference.pattern.readAt last s = some h)
    (he : assetOf? table current (String.ofList (h.groupText 3)) = some e)
    (hq : '"' ∉ h.text.dropLast) : '"' ∉ attributeReading table current h := by
  obtain ⟨p, hp⟩ := AttributeParts.exists_of_readAt hr
  have htext : h.text = p.text := congrArg Hit.text hp
  rw [htext, AttributeParts.text, List.dropLast_concat] at hq
  have hname : '"' ∉ p.blank :: p.name := fun hm => hq (List.mem_append_left _ hm)
  have hopening : p.opening ≠ '"' := fun ho => hq (by simp [AttributeParts.unclosed, ho])
  rw [attributeReading_of_some he, hp, p.groupText_one, p.groupText_two]
  simp only [List.mem_append, List.mem_cons, List.not_mem_nil, or_false, not_or]
  simp only [List.mem_cons, not_or] at hname
  exact ⟨⟨⟨hname, by decide, hopening.symm⟩, quote_not_mem_dataUrl hw he⟩, hopening.symm⟩

/-- The pieces were read where they stand. -/
def AreRead (p : Pattern) (ps : List Piece) : Prop :=
  ∀ h, .hit h ∈ ps → ∃ last s, p.readAt last s = some h

theorem AreRead.text_ne_nil {p : Pattern} (hp : p.takesSome = true) (hr : AreRead p ps) :
    ∀ x ∈ ps, x.text ≠ [] := by
  intro x hx
  cases x with
  | gap c => exact List.cons_ne_nil c []
  | hit h =>
    obtain ⟨last, s, hread⟩ := hr h hx
    exact (reads_of_readAt hread).2.ne_nil hp

theorem quote_not_mem_written (hw : WellEncoded table) (hr : AreRead assetReference.pattern ps)
    (hq : '"' ∉ ps.flatMap Piece.text) :
    '"' ∉ ps.flatMap (Piece.write (attributeReading table current)) := by
  intro hm
  obtain ⟨piece, hp, hm⟩ := List.mem_flatMap.mp hm
  have hq : '"' ∉ piece.text := fun h => hq (List.mem_flatMap_of_mem hp h)
  cases piece with
  | gap c => exact hq hm
  | hit h =>
    obtain ⟨last, s, hread⟩ := hr h hp
    rw [Piece.write] at hm
    cases he : assetOf? table current (String.ofList (h.groupText 3)) with
    | none =>
      rw [attributeReading_of_none he] at hm
      exact hq hm
    | some e =>
      exact quote_not_mem_attributeReading hw hread he (fun h => hq (List.mem_of_mem_dropLast h)) hm

theorem exists_last_piece {c : Char} (hps : ps.flatMap Piece.text = v ++ [c])
    (hne : ∀ x ∈ ps, x.text ≠ []) :
    ∃ qs x z, ps = qs ++ [x] ∧ x.text = z ++ [c] ∧ v = qs.flatMap Piece.text ++ z := by
  rcases List.eq_nil_or_concat ps with rfl | ⟨qs, x, rfl⟩
  · exact absurd hps (by simp)
  · rw [List.concat_eq_append] at hps hne ⊢
    obtain ⟨z, d, hx⟩ := (List.eq_nil_or_concat x.text).resolve_left (hne x (by simp))
    rw [List.concat_eq_append] at hx
    rw [List.flatMap_append, List.flatMap_singleton, hx, ← List.append_assoc] at hps
    obtain ⟨rfl, hd⟩ := List.append_inj' hps rfl
    obtain rfl := List.head_eq_of_cons_eq hd
    exact ⟨qs, x, z, rfl, hx, rfl⟩

/-- The piece is a reference that is replaced. -/
def IsReplaced (table : PathTable) (current : String) (x : Piece) : Prop :=
  ∃ h, x = .hit h ∧ assetOf? table current (String.ofList (h.groupText 3)) ≠ none

/-- A piece that ends with a double quote is kept, or it is replaced and loses this quote. -/
theorem write_of_text_eq (hw : WellEncoded table) {x : Piece} {z : List Char}
    (hr : AreRead assetReference.pattern [x]) (hx : x.text = z ++ ['"']) (hz : '"' ∉ z) :
    (Piece.write (attributeReading table current) x = z ++ ['"'] ∧ ¬ IsReplaced table current x) ∨
      ('"' ∉ Piece.write (attributeReading table current) x ∧ IsReplaced table current x) := by
  cases x with
  | gap c => exact .inl ⟨hx, fun ⟨h, he, _⟩ => Piece.noConfusion he⟩
  | hit h =>
    rw [Piece.write]
    cases he : assetOf? table current (String.ofList (h.groupText 3)) with
    | none =>
      rw [attributeReading_of_none he]
      refine .inl ⟨hx, ?_⟩
      rintro ⟨h', hh, hn⟩
      obtain rfl := Piece.hit.inj hh
      exact hn he
    | some e =>
      have hlast : h.text.dropLast = z := (congrArg List.dropLast hx).trans List.dropLast_concat
      obtain ⟨last, s, hread⟩ := hr h List.mem_cons_self
      refine .inr ⟨quote_not_mem_attributeReading hw hread he (hlast ▸ hz), h, rfl, ?_⟩
      rw [he]
      exact Option.some_ne_none e

/-- Only the last piece before the end of the tag can run over the closing quote. -/
theorem runsOver_iff {markup : String} {qs : List Piece} {x : Piece}
    (hc : assetReference.pattern.cut markup.toList = u.map .gap ++ (qs ++ [x] ++ t.map .gap))
    (hx : x.text.getLast? = some '"') (hqs : '"' ∉ qs.flatMap Piece.text) :
    RunsOver table current markup ↔ IsReplaced table current x := by
  have hm (h : Hit) : h ∈ assetReference.pattern.hits markup ↔ .hit h ∈ qs ∨ x = .hit h := by
    rw [mem_hits, hc]
    simp [eq_comm]
  constructor
  · rintro ⟨h, hh, hlast, hn⟩
    rcases (hm h).mp hh with hh | rfl
    · exact absurd (List.mem_flatMap_of_mem hh (List.mem_of_getLast? hlast)) hqs
    · exact ⟨h, rfl, hn⟩
  · rintro ⟨h, rfl, hn⟩
    exact ⟨h, (hm h).mpr (.inr rfl), hx, hn⟩

/-- The attributes in the value are written without a double quote. If a reference runs over the
closing quote of the style attribute, this quote is gone. -/
theorem attributed_styledTag (hw : WellEncoded table) (hv : '"' ∉ value.toList) :
    ∃ w t, '"' ∉ w ∧
      (attributed table current (styledTag value)).toList = styleOpening ++ (w ++ t) ∧
      (t = ['"', '>'] ∧ ¬ RunsOver table current (styledTag value) ∨
        t = ['>'] ∧ RunsOver table current (styledTag value)) := by
  obtain ⟨ps, hcut, hps⟩ := exists_cut_between (p := assetReference.pattern)
    (v := value.toList ++ ['"']) rfl (passes_assetReference_styleOpening _)
    (endsOutside_assetReference (t := ['>']) (by decide))
  have htext : (styledTag value).toList = styleOpening ++ (value.toList ++ ['"'] ++ ['>']) := by
    simp [styledTag]
  rw [← htext] at hcut
  have hcuts := cuts_cut (p := assetReference.pattern) rfl (styledTag value).toList
  have hread : AreRead assetReference.pattern ps := fun h hm =>
    hcuts.exists_readAt (by simp [hcut, hm])
  obtain ⟨qs, x, z, rfl, hx, hvalue⟩ := exists_last_piece hps (hread.text_ne_nil rfl)
  rw [hvalue, List.mem_append, not_or] at hv
  have hqs : '"' ∉ qs.flatMap (Piece.write (attributeReading table current)) :=
    quote_not_mem_written hw (fun h hm => hread h (List.mem_append_left _ hm)) hv.1
  have hlist : (attributed table current (styledTag value)).toList = _ :=
    toList_replace_between _ hcut
  rw [List.flatMap_append, List.flatMap_singleton] at hlist
  rw [runsOver_iff hcut (by simp [hx]) hv.1]
  rcases write_of_text_eq hw (fun h hm => hread h (List.mem_append_right _ hm)) hx hv.2 with
    ⟨hwrite, hn⟩ | ⟨hwrite, hr⟩
  · refine ⟨_ ++ z, _, fun hm => (List.mem_append.mp hm).elim hqs hv.2, ?_, .inl ⟨rfl, hn⟩⟩
    rw [hlist, hwrite]
    simp
  · exact ⟨_, _, fun hm => (List.mem_append.mp hm).elim hqs hwrite, hlist, .inr ⟨rfl, hr⟩⟩

/-! ## The `url(...)` in the value -/

theorem exists_inlineStyle_eq (hw : WellEncoded table) {css : String}
    (hcss : css.toList = styleOpening ++ (v ++ t)) (hv : '"' ∉ v) (ht : ')' ∉ t) :
    ∃ w, (inlineStyle table current css).toList = styleOpening ++ (w ++ t) ∧
      w.count '"' = 2 * (replacements table current css).length := by
  obtain ⟨ps, hcut, rfl⟩ := exists_cut_between (p := urlToken.pattern) rfl
    (passes_urlToken_styleOpening (v ++ t)) (endsOutside_urlToken ht)
  rw [← hcss] at hcut
  refine ⟨styled table current ps, toList_replace_between _ hcut, ?_⟩
  rw [count_quote_styled hw hv, replacements, hits_between hcut]

theorem keepsStyle_iff_of_toList_eq {markup : String}
    (h : markup.toList = styleOpening ++ (w ++ ['"', '>'])) : KeepsStyle markup ↔ '"' ∉ w := by
  constructor
  · rintro ⟨value, hvalue, rfl⟩
    rw [styledTag, String.toList_ofList] at h
    exact List.append_cancel_right (List.append_cancel_left h) ▸ hvalue
  · intro hq
    refine ⟨String.ofList w, by rwa [String.toList_ofList], String.toList_inj.mp ?_⟩
    rw [styledTag, String.toList_ofList, String.toList_ofList, h]

theorem count_quote_of_keepsStyle {markup : String} (h : KeepsStyle markup) :
    markup.toList.count '"' = 2 := by
  obtain ⟨value, hvalue, rfl⟩ := h
  have hcount : value.toList.count '"' = 0 := List.count_eq_zero.mpr hvalue
  simp [styledTag, styleOpening, hcount]

/-- After its assets are put in, a tag with a style in double quotes is such a tag still exactly when
no `url(...)` in it was replaced, and no reference that was replaced took its closing quote away. -/
theorem keepsStyle_iff (hw : WellEncoded table) (hv : '"' ∉ value.toList) :
    KeepsStyle (inlineMarkup table current (styledTag value)) ↔
      ¬ RunsOver table current (styledTag value) ∧
        replacements table current (attributed table current (styledTag value)) = [] := by
  obtain ⟨v, t, hq, hlist, ht⟩ := attributed_styledTag hw hv
  have hbracket : ')' ∉ t := by
    rcases ht with ⟨rfl, -⟩ | ⟨rfl, -⟩ <;> decide
  obtain ⟨w, hinline, hcount⟩ := exists_inlineStyle_eq hw hlist hq hbracket
  have hmarkup : inlineMarkup table current (styledTag value) =
      inlineStyle table current (attributed table current (styledTag value)) := rfl
  rw [hmarkup, ← List.length_eq_zero_iff]
  rcases ht with ⟨rfl, hn⟩ | ⟨rfl, hr⟩
  · rw [keepsStyle_iff_of_toList_eq hinline, ← List.count_eq_zero, hcount]
    simp [hn]
  · -- one double quote opens the attribute and an even number of them follows
    refine iff_of_false (fun hkeeps => ?_) fun h => h.1 hr
    have htwo := count_quote_of_keepsStyle hkeeps
    have hone : styleOpening.count '"' = 1 ∧ ['>'].count '"' = 0 := ⟨rfl, rfl⟩
    rw [hinline, List.count_append, List.count_append, hcount, hone.1, hone.2] at htwo
    omega

/-- The table of one image. -/
def pictured : PathTable := .ofFiles [.new 0 "a.png" .image (.payload "AAAA")]

theorem wellEncoded_pictured : WellEncoded pictured := by
  intro e he
  obtain rfl : e = ⟨"a.png", .image, .payload "AAAA"⟩ := List.mem_singleton.mp he
  intro c hc
  obtain rfl : c = 'A' := by simpa using hc
  exact .inl rfl

theorem keepsStyle_iff_otherImage :
    WellEncoded pictured ∧ '"' ∉ "background:url(b.png)".toList ∧
      KeepsStyle (inlineMarkup pictured "index.html" (styledTag "background:url(b.png)")) := by
  have hv : '"' ∉ "background:url(b.png)".toList := by decide
  refine ⟨wellEncoded_pictured, hv, (keepsStyle_iff wellEncoded_pictured hv).mpr ⟨?_, ?_⟩⟩
  · unfold RunsOver
    decide
  · decide

/-- A `url(...)` that is replaced ends the attribute around it. -/
theorem not_forall_keepsStyle :
    ¬ ∀ (table : PathTable) (current value : String), WellEncoded table →
      '"' ∉ value.toList → '<' ∉ value.toList → '>' ∉ value.toList →
        KeepsStyle (inlineMarkup table current (styledTag value)) := by
  intro h
  have hkeeps := h pictured "index.html" "background:url(a.png)" wellEncoded_pictured (by decide)
    (by decide) (by decide)
  have htwo := count_quote_of_keepsStyle hkeeps
  revert htwo
  decide

end Workbench.Page
