import Workbench.Proofs.Page.QuotedReference
import Workbench.Proofs.Page.Unresolved

/-!
# A style sheet that is rewritten twice

Putting the assets into a style sheet a second time changes nothing (`inlineStyle_twice`), if all
payloads are base64 text. A `url(...)` that was written is found again as a whole, and its reference is
external now. No other `url(...)` comes about: one that begins before a written one would run over its
two quotes, and only the name of a `url(...)` stands before the first of two quotes
(`not_reads_over`).
-/

namespace Workbench.Page

open Markup Pattern Script Text

variable {table : PathTable} {current css : String} {e : PathTable.Entry} {h : Hit} {ps : List Piece}
  {last : Option Char} {c : Char} {s v w x y rest : List Char}

/-! ## A `url(...)` that was written -/

theorem toList_written (e : PathTable.Entry) :
    ("url(\"" ++ e.dataUrl ++ "\")").toList = urlOpening '"' ++ (e.dataUrl.toList ++ ['"', ')']) := by
  simp [urlOpening]

/-- A `url(...)` that was written has its only closing bracket at its end. -/
theorem exists_written_eq (hb : e.content.IsWellEncoded) :
    ∃ m, ("url(\"" ++ e.dataUrl ++ "\")").toList = m ++ [')'] ∧ ')' ∉ m := by
  refine ⟨urlOpening '"' ++ (e.dataUrl.toList ++ ['"']), by simp [urlOpening], ?_⟩
  have hurl : ')' ∉ e.dataUrl.toList := fun hm =>
    absurd (isPlain_of_mem_dataUrl hb _ hm) (by decide)
  simp [urlOpening, hurl]

/-- No `url(...)` begins before one that was written and ends with it. -/
theorem not_reads_over (c : Char) (x : List Char) (e : PathTable.Entry) :
    ¬ urlToken.pattern.Reads last (c :: x ++ ("url(\"" ++ e.dataUrl ++ "\")").toList) rest := by
  intro h
  obtain ⟨p, hp⟩ := UrlParts.exists_of_reads h
  have htext : p.text = (c :: x ++ ['u', 'r', 'l', '(']) ++ '"' :: (e.dataUrl.toList ++ ['"', ')']) := by
    rw [← hp, toList_written]
    simp [urlOpening]
  have hhead := p.head_eq htext rfl (by simp [isQuote])
  have hbracket : p.head.getLast? = some '(' := by
    rw [hhead, List.getLast?_append]
    rfl
  have hlength := p.length_head hbracket
  rw [hhead] at hlength
  simp at hlength

/-- A `url(...)` that was written is found again, and it leads to no asset. -/
theorem exists_readAt_written (hb : e.content.IsWellEncoded) (last : Option Char) (rest : List Char) :
    ∃ h, urlToken.pattern.readAt last (("url(\"" ++ e.dataUrl ++ "\")").toList ++ rest) = some h ∧
      h.after = rest ∧ assetIn? table current h = none := by
  have hplain : ∀ d ∈ e.dataUrl.toList, isQuote d = false ∧ d ≠ ')' := by
    intro d hd
    have hd := isPlain_of_mem_dataUrl hb d hd
    simp only [isPlain, Bool.and_eq_true, bne_iff_ne] at hd
    exact ⟨by simp [isQuote, hd], hd.2⟩
  have hne : e.dataUrl.toList ≠ [] := by
    obtain ⟨u, hu⟩ := exists_dataUrl_cons e
    simp [hu]
  have hprefers : urlToken.pattern.Prefers last _ rest _ :=
    prefers_quotedUrl (q := '"') rfl hplain hne
  have hread := readAt_of_prefers hprefers
  rw [← toList_written] at hread
  refine ⟨_, hread, rfl, assetOf?_eq_none_iff.mpr (.inl (isExternal_of_dataScheme ?_))⟩
  refine prefix_trim_of_dataScheme ?_
  simpa [Hit.groupText, Hit.group?] using dataScheme_prefix_dataUrl e

/-! ## A `url(...)` that was kept -/

/-- What is found is the same whatever stands behind it. -/
theorem exists_readAt_kept (hr : urlToken.pattern.readAt last s = some h) (last' : Option Char)
    (rest : List Char) :
    ∃ h', urlToken.pattern.readAt last' (h.text ++ rest) = some h' ∧ h'.after = rest ∧
      assetIn? table current h' = assetIn? table current h := by
  obtain ⟨hs, hread⟩ := reads_of_readAt hr
  rw [hs] at hr
  obtain ⟨alone, hralone, hext⟩ := readAt_of_append rfl hr (Nat.le_refl _)
  have hsome : urlToken.pattern.readAt last (h.text ++ rest) ≠ none := fun hn =>
    readAt_eq_none.mp hn h.text rest rfl (hread.of_selfContained rfl)
  obtain ⟨h', hr'⟩ := Option.ne_none_iff_exists'.mp hsome
  obtain ⟨hs', hread'⟩ := reads_of_readAt hr'
  have hle : h'.text.length ≤ h.text.length := by
    obtain ⟨v, hv, -⟩ := exists_of_reads_urlToken hread
    obtain ⟨w, hw, hbracket⟩ := exists_of_reads_urlToken hread'
    have hprefix : w ++ [')'] <+: v ++ [')'] ++ rest := by
      rw [← hv, ← hw, hs']
      exact List.prefix_append _ _
    rw [hv, hw]
    exact (prefix_of_first hprefix hbracket).length_le
  obtain ⟨alone', hralone', hext'⟩ := readAt_of_append rfl hr' hle
  obtain rfl : alone' = alone := Option.some.inj (hralone'.symm.trans hralone)
  have hafter : alone'.after ++ h.after = h.after := congrArg Hit.after hext
  refine ⟨h', ?_, ?_, ?_⟩
  · rw [readAt_congr_last urlToken_sectioned.begins last' last, hr']
  · rw [← hext', Hit.extend, List.append_left_eq_self.mp hafter, List.nil_append]
  · rw [assetIn?, assetIn?, ← hext', ← hext, groupText_extend hralone, groupText_extend hralone]

/-! ## The second pass -/

/-- Up to its first closing bracket the rewritten text is the text as it was, or it ends with a
`url(...)` that was written. -/
theorem prefix_of_prefix_styled (hw : WellEncoded table) (h : urlToken.pattern.Cuts last s ps)
    (hv : ')' ∉ v) : ∀ {x}, v ++ [')'] <+: x ++ styled table current ps →
      v ++ [')'] <+: x ++ s ∨
        ∃ (y : List Char) (e : PathTable.Entry),
          v ++ [')'] = x ++ (y ++ ("url(\"" ++ e.dataUrl ++ "\")").toList) := by
  induction h with
  | done => exact fun h => .inl h
  | @gap last c rest ps _ _ ih =>
    intro x h
    rw [styled_gap] at h
    rcases ih (x := x ++ [c]) (by simpa using h) with h | ⟨y, e, h⟩
    · exact .inl (by simpa using h)
    · exact .inr ⟨c :: y, e, by simpa using h⟩
  | @hit last s hit ps hr _ _ =>
    intro x h
    rw [styled_hit] at h
    cases he : assetIn? table current hit with
    | none =>
      obtain ⟨hs, hread⟩ := reads_of_readAt hr
      obtain ⟨w, hw, -⟩ := exists_of_reads_urlToken hread
      rw [styleReading_of_none he, hw, ← List.append_assoc, ← List.append_assoc] at h
      refine .inl ((prefix_of_first h hv).trans ?_)
      rw [hs, hw, ← List.append_assoc, ← List.append_assoc]
      exact List.prefix_append _ _
    | some e =>
      obtain ⟨m, hm, hbracket⟩ := exists_written_eq (hw e (mem_entries_of_assetOf? he))
      rw [styleReading_of_some he, hm, ← List.append_assoc, ← List.append_assoc] at h
      rcases List.prefix_concat_iff.mp (prefix_of_first h hv) with h | h
      · exact .inr ⟨[], e, by rw [hm, h, List.append_assoc, List.nil_append]⟩
      · exact .inl ((prefix_of_not_mem h hbracket).trans (List.prefix_append _ _))

/-- Where nothing was found, nothing is found when the text behind it was rewritten. -/
theorem readAt_gap (hw : WellEncoded table) (h : urlToken.pattern.Cuts (some c) s ps)
    (hr : urlToken.pattern.readAt last (c :: s) = none) :
    urlToken.pattern.readAt last (c :: styled table current ps) = none := by
  refine readAt_eq_none.mpr fun w rest hs hread => ?_
  obtain ⟨v, rfl, hv⟩ := exists_of_reads_urlToken hread
  have hprefix : v ++ [')'] <+: [c] ++ styled table current ps := ⟨rest, hs.symm⟩
  rcases prefix_of_prefix_styled hw h hv hprefix with ⟨rest', hs'⟩ | ⟨y, e, hwritten⟩
  · exact readAt_eq_none.mp hr _ rest' hs'.symm (hread.of_selfContained rfl)
  · exact not_reads_over c y e (hwritten ▸ hread)

/-- In the rewritten text every `url(...)` that is found leads to no asset. -/
theorem exists_cuts_styled (hw : WellEncoded table) (current : String)
    (h : urlToken.pattern.Cuts last s ps) :
    ∀ last', ∃ qs, urlToken.pattern.Cuts last' (styled table current ps) qs ∧
      ∀ h, .hit h ∈ qs → assetIn? table current h = none := by
  induction h with
  | done => exact fun last' => ⟨[], .done last', fun _ hm => absurd hm List.not_mem_nil⟩
  | @gap last c rest ps hr hc ih =>
    intro last'
    obtain ⟨qs, hqs, hnone⟩ := ih (some c)
    have hgap : urlToken.pattern.readAt last' (c :: styled table current ps) = none :=
      readAt_congr_last urlToken_sectioned.begins last last' ▸ readAt_gap hw hc hr
    rw [styled_gap]
    exact ⟨.gap c :: qs, .gap hgap hqs, fun h hm => hnone h (by simpa using hm)⟩
  | @hit last s hit ps hr _ ih =>
    intro last'
    obtain ⟨hit', hread, hafter, hasset⟩ : ∃ hit', urlToken.pattern.readAt last'
        (styleReading table current hit ++ styled table current ps) = some hit' ∧
        hit'.after = styled table current ps ∧ assetIn? table current hit' = none := by
      cases he : assetIn? table current hit with
      | none =>
        obtain ⟨hit', hread, hafter, hasset⟩ :=
          exists_readAt_kept hr last' (styled table current ps)
        exact ⟨hit', styleReading_of_none he ▸ hread, hafter, hasset.trans he⟩
      | some e =>
        rw [styleReading_of_some he]
        exact exists_readAt_written (hw e (mem_entries_of_assetOf? he)) last' _
    obtain ⟨qs, hqs, hnone⟩ := ih (hit'.text.getLast?.or last')
    rw [← hafter] at hqs
    rw [styled_hit]
    refine ⟨.hit hit' :: qs, .hit hread hqs, fun h hm => ?_⟩
    rcases List.mem_cons.mp hm with he | hm
    · exact Piece.hit.inj he ▸ hasset
    · exact hnone h hm

/-- Putting the assets into a style sheet once more changes nothing. -/
theorem inlineStyle_twice (hw : WellEncoded table) (current css : String) :
    inlineStyle table current (inlineStyle table current css) = inlineStyle table current css := by
  have hcuts : urlToken.pattern.Cuts none css.toList (urlToken.pattern.cut css.toList) :=
    cuts_cut rfl css.toList
  obtain ⟨qs, hqs, hnone⟩ := exists_cuts_styled hw current hcuts none
  have hlist : (inlineStyle table current css).toList =
      styled table current (urlToken.pattern.cut css.toList) := toList_replace _ _ _
  rw [← hlist] at hqs
  refine inlineStyle_eq_self fun h hm => assetOf?_eq_none_iff.mp (hnone h ?_)
  rw [mem_hits, hqs.eq_cut rfl] at hm
  exact hm

/-- A sheet with an image between quotes that do not match, one behind a `url(...)` that is never
closed, and one that does not exist. -/
def mixedSheet : String :=
  "a\x7bb:url( 'a.png )\x7d c\x7bd:url('e url(\"a.png\")\x7d f\x7bg:url(b.png)\x7d"

theorem inlineStyle_twice_mixedSheet :
    WellEncoded pictured ∧
      inlineStyle pictured "style.css" mixedSheet ≠ mixedSheet ∧
      inlineStyle pictured "style.css" (inlineStyle pictured "style.css" mixedSheet) =
        inlineStyle pictured "style.css" mixedSheet :=
  ⟨wellEncoded_pictured, by decide, inlineStyle_twice wellEncoded_pictured "style.css" mixedSheet⟩

end Workbench.Page
