import Workbench.Proofs.Markup.Fragment
import Workbench.Proofs.Markup.QuotedHref

/-!
# Reading the elements of a fragment

An empty script with a source is read whole by the rule for such scripts, with the blanks and the line
end behind it (`SourcedScript.exists_readAt`), and a link to a style sheet by the rule for links
(`StyleLink.exists_readAt`). The reference of a link is the `href` that it is written with, if any
(`StyleLink.hrefOf?_append`). The other elements are passed over by each rule, for a tag begins at a
bracket: a script with its code begins like an empty one but has no attribute
(`InlineScript.readAt_eq_none`).
-/

namespace Workbench.Markup

open Pattern Script Text

variable {last : Option Char} {s w rest letters : List Char} {c letter : Char} {tag : String}

/-! ## Places where a tag begins -/

theorem nowhere_tag_of_not_mem (h : '<' ∉ w) (letters s : List Char) :
    Nowhere (beginsFolded ('<' :: letters)) w s := .of_forall fun c hc s => by
  refine beginsFolded_eq_false (stops_cons.mpr ?_)
  by_contra hfold
  have hfold : foldsTo '<' c = true := by simpa using hfold
  exact h (eq_of_foldsTo (by decide) hfold ▸ hc)

/-- A tag does not begin like another one that goes on with another character. -/
theorem nowhere_spelling {other : Char} {others : List Char}
    (hw : List.Forall₂ (fun letter c => foldsTo letter c = true) ('<' :: other :: others) w)
    (hbracket : '<' ∉ other :: others) (hl : letter.toNat < 128 ∧ other.toNat < 128)
    (hne : other ≠ letter) (s : List Char) :
    Nowhere (beginsFolded ('<' :: letter :: letters)) w s := by
  obtain _ | ⟨-, hv⟩ := hw
  have hinner := ne_lt_of_forall₂ hbracket hv
  refine .cons ?_ (nowhere_tag_of_not_mem (fun hm => hinner _ hm rfl) _ s)
  obtain _ | ⟨hc, -⟩ := hv
  rw [List.cons_append, beginsFolded, beginsFolded_eq_false, Bool.and_false]
  refine stops_cons.mpr ?_
  by_contra hfold
  exact hne (eq_of_foldsTo_of_foldsTo hc (by simpa using hfold) hl.2 hl.1)

/-- The name of a tag ends with a word character. -/
theorem isWord_getLast?_tag
    (hw : List.Forall₂ (fun letter c => foldsTo letter c = true) ('<' :: letter :: letters) w)
    (hl : (letter :: letters).all isLetter = true) (last : Option Char) :
    (w.getLast?.or last).any isWord = true := by
  obtain _ | @⟨_, c, _, v, -, hv⟩ := hw
  have hword : ∀ d ∈ v, isWord d = true := fun d hd => by
    obtain ⟨letter, hm, hfold⟩ := exists_letter_of_mem hv hd
    exact isWord_of_foldsTo (List.all_eq_true.mp hl letter hm) hfold
  have hne : v ≠ [] := fun hn => by simpa [hn] using hv.length_eq
  have hlast := List.getLast?_eq_some_getLast hne
  rw [getLast?_cons_or, hlast, Option.some_or]
  exact hword _ (List.getLast_mem hne)

theorem Others.stops (x : Others) (hedge : x.chars.head?.any isWord = false)
    (hs : Stops isWord s) : Stops isWord (x.chars ++ s) := by
  cases hx : x.chars with
  | nil => exact hs
  | cons c v =>
    rw [hx] at hedge
    exact stops_cons.mpr hedge

theorem AttributeHead.stops {name : String} (x : AttributeHead name) (s : List Char) :
    Stops isWord (x.chars ++ s) := stops_cons.mpr (isWord_eq_false_of_isBlank x.blank_ok)

/-! ## Scripts -/

theorem ClosingScript.prefers (x : ClosingScript) :
    (closingTag "script").Prefers last x.chars rest [] :=
  .andThen (.anyCase x.tag.folds) <|
    .andThen (.many x.gap.all_ok (stops_cons.mpr (by decide))) (.char rfl)

namespace SourcedScript

variable (x : SourcedScript)

theorem prefers_tail (hw : ∀ last, blankTail.Prefers last w rest []) :
    (all [insideTag, this '>', gap, closingTag "script", blankTail]).Prefers last (x.tail ++ w) rest
      [] := by
  have hinside : ∀ c ∈ x.after.chars, (c != '>') = true := fun _ hc =>
    ne_of_isInside (x.after.isInside_of_mem hc)
  have hclosing : Stops isBlank (x.closing.chars ++ w ++ rest) := by
    obtain ⟨⟨v, hv⟩, gap⟩ := x.closing
    obtain _ | ⟨hc, -⟩ := hv
    exact stops_cons.mpr (by rw [eq_of_foldsTo (by decide) hc]; decide)
  have hread : (all [insideTag, this '>', gap, closingTag "script", blankTail]).Prefers last
      (x.after.chars ++ (['>'] ++ (x.inner.chars ++ (x.closing.chars ++ w)))) rest [] :=
    .andThen (.many hinside (stops_cons.mpr rfl)) <| .andThen (u := ['>']) (.char rfl) <|
      .andThen (.many x.inner.all_ok hclosing) <| .andThen x.closing.prefers (hw _)
  simpa [tail] using hread

theorem prefers_source (hw : ∀ last, blankTail.Prefers last w rest []) :
    (all [char isBlank, anyCase "src", equals, quotedReference 1, insideTag, this '>', gap,
      closingTag "script", blankTail]).Prefers last
      (x.source.chars ++ (x.reference.chars ++ (x.tail ++ w))) rest
      [⟨1, x.reference.value.chars ++ x.reference.quote :: (x.tail ++ w ++ rest),
        x.reference.value.chars.length⟩] := by
  have hvalue (last : Option Char) : (all [quotedReference 1, insideTag, this '>', gap,
      closingTag "script", blankTail]).Prefers last (x.reference.chars ++ (x.tail ++ w)) rest _ :=
    x.reference.prefers.seq (x.prefers_tail hw)
  have hread : (all [char isBlank, anyCase "src", equals, quotedReference 1, insideTag, this '>', gap,
      closingTag "script", blankTail]).Prefers last ([x.source.blank] ++ (x.source.name.chars ++
        (x.source.equalsSign ++ (x.reference.chars ++ (x.tail ++ w))))) rest _ :=
    .andThen (.char x.source.blank_ok) <| .andThen (.anyCase x.source.name.folds) <|
      .andThen (x.source.prefers_equals (x.reference.stops_isBlank _).assoc) (hvalue _)
  simpa [AttributeHead.chars] using hread

/-- The element is read whole, with the blanks and the line end behind it. -/
theorem exists_readAt (last : Option Char) (s : List Char) :
    ∃ h, scriptReference.pattern.readAt last (x.chars ++ s) = some h ∧
      h.groupText 1 = x.reference.value.chars ∧ h.after = afterLineEnd s := by
  obtain ⟨w, hs, hw⟩ := exists_prefers_blankTail s
  have hbefore : ∀ c ∈ x.before.chars, (c != '>') = true := fun _ hc =>
    ne_of_isInside (x.before.isInside_of_mem hc)
  have hedge (v rest : List Char) : Stops isWord (x.before.chars ++ (x.source.chars ++ v) ++ rest) :=
    .assoc <| x.before.stops x.edge (x.source.stops (v ++ rest))
  -- the attribute is not found in those before it
  have hnowhere (v rest : List Char) :
      Nowhere (opensAttribute "src") x.before.chars (x.source.chars ++ v ++ rest) :=
    x.before.nowhere (by decide) (List.append_assoc _ v rest ▸ x.source.stops (v ++ rest))
  have hread : scriptReference.pattern.Prefers last (x.tag.chars ++ ([] ++ (x.before.chars ++
      (x.source.chars ++ (x.reference.chars ++ (x.tail ++ w)))))) (afterLineEnd s) _ :=
    .andThen (.anyCase x.tag.folds) <|
      .andThen (prefers_wordEdge (isWord_getLast?_tag x.tag.folds rfl last) (hedge _ _)) <|
      .fewestBefore hbefore (fun a b hab hb =>
        (hnowhere _ _).readAt_eq_none (beginsWhere_attribute "src" _) hab hb) (x.prefers_source hw)
  have hreadAt := readAt_of_prefers hread
  have hchars : x.chars ++ s = x.tag.chars ++ ([] ++ (x.before.chars ++ (x.source.chars ++
      (x.reference.chars ++ (x.tail ++ w))))) ++ afterLineEnd s := by
    rw [List.nil_append]
    conv_lhs => rw [hs]
    simp only [chars, List.append_assoc]
  rw [hchars]
  exact ⟨_, hreadAt, List.take_left, rfl⟩

end SourcedScript

namespace InlineScript

variable (x : InlineScript)

/-- No source stands in the opening tag. -/
theorem readAt_eq_none (last : Option Char) (s : List Char) :
    scriptReference.pattern.readAt last (x.chars ++ s) = none := by
  refine Pattern.readAt_eq_none.mpr ?_
  rintro _ rest hsplit ⟨t, _, rfl, ht, _, _, rfl, ⟨rfl, -⟩, u, _, rfl, hu, _, _, rfl, ⟨b, hb, rfl⟩, name,
    v, rfl, hname, -⟩
  have htag := (reads_anyCase _).mp ht
  have hlength : x.tag.chars.length = t.length := x.tag.folds.length_eq.symm.trans htag.length_eq
  have hname := (reads_anyCase _).mp hname
  obtain ⟨d, v', rfl, hd⟩ : ∃ d v', name = d :: v' ∧ foldsTo 's' d = true := by
    obtain _ | ⟨hd, -⟩ := hname
    exact ⟨_, _, rfl, hd⟩
  have hword := isWord_of_foldsTo (by decide) hd
  have hsplit : x.tag.chars ++ (x.gap.chars ++ ('>' :: (x.code.chars ++ x.closing.chars ++ s))) =
      t ++ (u ++ [b, d] ++ (v' ++ (v ++ rest))) := by
    simpa [chars] using hsplit
  obtain ⟨-, hsplit⟩ := List.append_inj hsplit hlength
  have hinside : ∀ c ∈ u ++ [b, d], (c != '>') = true := by
    have hu : ∀ c ∈ u, (c != '>') = true := hu
    intro c hc
    rcases List.mem_append.mp hc with hc | hc
    · exact hu c hc
    · rcases List.mem_pair.mp hc with rfl | rfl
      · exact ne_of_isInside (isInside_of_isBlank hb)
      · exact ne_of_isInside (isInside_of_isWord hword)
  have hgap : u ++ [b, d] <+: x.gap.chars :=
    prefix_of_stops ⟨_, hsplit.symm⟩ hinside (stops_cons.mpr (by decide))
  have hblank := x.gap.all_ok d (hgap.subset (by simp))
  rw [isWord_eq_false_of_isBlank hblank] at hword
  exact Bool.false_ne_true hword

end InlineScript

/-! ## Links -/

theorem isBlank_of_reads_blankTail (h : blankTail.Reads last w rest) : ∀ c ∈ w, isBlank c = true := by
  obtain ⟨u, v, rfl, hu, hv⟩ := h
  have hu : ∀ c ∈ u, isIndent c = true := hu
  intro c hc
  rcases List.mem_append.mp hc with hc | hc
  · exact isBlank_of_isIndent (hu c hc)
  · rcases hv with ⟨a, _, rfl, ha, d, hd, rfl⟩ | rfl
    · obtain rfl := eq_of_beq hd
      rcases ha with ⟨e, he, rfl⟩ | rfl
      · obtain rfl := eq_of_beq he
        rcases List.mem_pair.mp hc with rfl | rfl <;> decide
      · obtain rfl := List.mem_singleton.mp hc
        decide
    · exact absurd hc List.not_mem_nil

theorem Href.isInside_of_mem (x : Href) (hc : c ∈ x.chars) : isInside c = true :=
  (List.mem_append.mp hc).elim (x.head.isInside_of_mem rfl) x.reference.isInside_of_mem

namespace LinkAttributes

variable (x : LinkAttributes)

theorem isInside_beforeRel : ∀ c ∈ x.beforeRel, isInside c = true := by
  intro c hc
  cases x with
  | relOnly before _ _ => exact before.isInside_of_mem hc
  | relFirst before _ _ _ _ => exact before.isInside_of_mem hc
  | hrefFirst before href between _ _ =>
    simp only [beforeRel, List.mem_append] at hc
    exact hc.elim before.isInside_of_mem (·.elim href.isInside_of_mem between.isInside_of_mem)

theorem isInside_afterRel : ∀ c ∈ x.afterRel, isInside c = true := by
  intro c hc
  cases x with
  | relOnly _ _ after => exact after.isInside_of_mem hc
  | relFirst _ _ between href after =>
    simp only [afterRel, List.mem_append] at hc
    exact hc.elim between.isInside_of_mem (·.elim href.isInside_of_mem after.isInside_of_mem)
  | hrefFirst _ _ _ _ after => exact after.isInside_of_mem hc

theorem stops_beforeRel (hedge : x.before.chars.head?.any isWord = false) (s : List Char) :
    Stops isWord (x.beforeRel ++ (x.rel.chars ++ s)) := by
  cases x with
  | relOnly before rel after => exact before.stops hedge (rel.head.stops _).assoc
  | relFirst before rel between href after => exact before.stops hedge (rel.head.stops _).assoc
  | hrefFirst before href between rel after =>
    have hstops := before.stops hedge (href.head.stops (href.reference.chars ++ (between.chars ++
      (rel.chars ++ s))))
    simpa [beforeRel, LinkAttributes.rel, Href.chars] using hstops

/-- What the rule reads of the attributes. -/
theorem reads (rest : List Char) :
    (all [insideTag, char isBlank, anyCase "rel", equals, optional (char isQuote),
      anyCase "stylesheet", optional (char isQuote), insideTag]).Reads last
      (x.beforeRel ++ (x.rel.chars ++ x.afterRel)) rest := by
  have hinside {w : List Char} (hw : ∀ c ∈ w, isInside c = true) : ∀ c ∈ w, (c != '>') = true :=
    fun c hc => ne_of_isInside (hw c hc)
  have hquote {last : Option Char} {rest : List Char} :
      (optional (char isQuote)).Reads last x.rel.quote.toList rest := by
    have hok := x.rel.quote_ok
    cases hq : x.rel.quote with
    | none => exact .inr rfl
    | some q =>
      rw [hq] at hok
      exact .inl ⟨q, hok, rfl⟩
  have hsplit : x.rel.chars ++ x.afterRel = [x.rel.head.blank] ++ (x.rel.head.name.chars ++
      (x.rel.head.equalsSign ++ (x.rel.quote.toList ++ (x.rel.value.chars ++
        (x.rel.quote.toList ++ x.afterRel))))) := by
    simp [Rel.chars, AttributeHead.chars]
  rw [hsplit]
  exact ⟨_, _, rfl, hinside x.isInside_beforeRel, _, _, rfl, ⟨_, x.rel.head.blank_ok, rfl⟩, _, _, rfl,
    (reads_anyCase _).mpr x.rel.head.name.folds, _, _, rfl, x.rel.head.reads_equals, _, _, rfl, hquote,
    _, _, rfl, (reads_anyCase _).mpr x.rel.value.folds, _, _, rfl, hquote,
    hinside x.isInside_afterRel⟩

end LinkAttributes

namespace StyleLink

variable (x : StyleLink)

/-- What the rule reads of the tag before its closing bracket. -/
theorem reads_tag (rest : List Char) :
    (all [anyCase "<link", wordEdge, insideTag, char isBlank, anyCase "rel", equals,
      optional (char isQuote), anyCase "stylesheet", optional (char isQuote), insideTag]).Reads last
      (x.tag.chars ++ (x.attributes.beforeRel ++ (x.attributes.rel.chars ++ x.attributes.afterRel)))
      rest := by
  refine ⟨x.tag.chars, _, rfl, (reads_anyCase _).mpr x.tag.folds, [], _, rfl, ⟨rfl, ?_⟩,
    x.attributes.reads rest⟩
  have hstops := x.attributes.stops_beforeRel x.edge (x.attributes.afterRel ++ rest)
  rw [isWord_getLast?_tag x.tag.folds rfl, List.append_eq, List.append_assoc, List.append_assoc]
  cases hhead : (x.attributes.beforeRel ++ (x.attributes.rel.chars ++ (x.attributes.afterRel ++
      rest))).head? with
  | none => simp
  | some c => simp [hstops c hhead]

/-- The link is read whole, with the blanks and the line end behind it. -/
theorem exists_readAt (last : Option Char) (s : List Char) :
    ∃ h w, styleReference.pattern.readAt last (x.chars ++ s) = some h ∧
      h.text = x.chars ++ w ∧ (∀ c ∈ w, isBlank c = true) ∧ h.after = afterLineEnd s := by
  obtain ⟨w, hs, hw⟩ := exists_prefers_blankTail s
  have hblank := isBlank_of_reads_blankTail (reads_of_readAt (readAt_of_prefers (hw none))).2
  have hread : styleReference.pattern.Prefers last _ (afterLineEnd s) _ :=
    (prefers_delimited rfl rfl (x.reads_tag ('>' :: (w ++ afterLineEnd s)))).all_concat (hw _)
  have hreadAt := readAt_of_prefers hread
  have hchars : x.tag.chars ++ (x.attributes.beforeRel ++ (x.attributes.rel.chars ++
      x.attributes.afterRel)) ++ ['>'] = x.chars := by
    simp [chars]
  rw [hchars, List.append_assoc, ← hs] at hreadAt
  exact ⟨_, w, hreadAt, rfl, hblank, rfl⟩

end StyleLink

/-! ## The reference of a link -/

/-- The attribute as it is read. -/
def Href.quoted (x : Href) : QuotedHref where
  head := x.head
  opening := x.reference.quote
  opening_ok := x.reference.quote_ok
  value := ⟨x.reference.value.chars, x.reference.not_isQuote_of_mem⟩
  value_ne := x.reference.value_ne
  closing := x.reference.quote
  closing_ok := x.reference.quote_ok

/-- The first `href` is found. -/
theorem hrefOf?_append (href : Href) {u : List Char} {s : List Char}
    (h : Nowhere (opensAttribute "href") u (href.chars ++ s)) :
    hrefOf? (u ++ (href.chars ++ s)) = some href.reference.text :=
  hrefOf?_of_first href.quoted (nowhere_opensQuotedHref h)

theorem Rel.isQuote_of_mem (x : Rel) (hc : c ∈ x.quote.toList) : isQuote c = true := by
  have hok := x.quote_ok
  rw [Option.mem_toList] at hc
  rwa [Option.mem_def.mp hc] at hok

/-- No `href` begins in the attribute that makes a link one to a style sheet. -/
theorem Rel.nowhere (x : Rel) (s : List Char) : Nowhere (opensAttribute "href") x.chars s := by
  have hvalue : ∀ c ∈ x.quote.toList ++ (x.value.chars ++ x.quote.toList), isBlank c = false := by
    intro c hc
    simp only [List.mem_append] at hc
    rcases hc with hc | hc | hc
    · exact isBlank_eq_false_of_isQuote (x.isQuote_of_mem hc)
    · exact x.value.isBlank_eq_false rfl c hc
    · exact isBlank_eq_false_of_isQuote (x.isQuote_of_mem hc)
  have hstops : Stops (foldsTo 'h') (x.quote.toList ++ (x.value.chars ++ x.quote.toList) ++ s) := by
    rw [List.append_assoc, List.append_assoc]
    refine .append (fun q hq => ?_) (x.value.stops rfl (by decide) (by decide) _)
    rcases isQuote_iff.mp (x.isQuote_of_mem hq) with rfl | rfl <;> rfl
  refine .append ?_ (nowhere_opensAttribute hvalue "href" s)
  exact x.head.nowhere rfl (by decide) rfl (x.head.name.stops rfl (by decide) (by decide)) hstops

/-- The beginning of a link holds no blank. -/
theorem nowhere_href_linkTag (x : Spelling "<link") (s : List Char) :
    Nowhere (opensAttribute "href") x.chars s := by
  refine nowhere_opensAttribute (fun c hc => ?_) "href" s
  obtain ⟨letter, hl, hfold⟩ := exists_letter_of_mem x.folds hc
  have hletters : "<link".toList.all (fun c => c == '<' || isLetter c) = true := by decide
  have hletter := List.all_eq_true.mp hletters letter hl
  rw [Bool.or_eq_true, beq_iff_eq] at hletter
  rcases hletter with rfl | hletter
  · rw [eq_of_foldsTo (by decide) hfold]
    decide
  · exact isBlank_eq_false_of_isWord (isWord_of_foldsTo hletter hfold)

/-- The reference of a link is found, with blanks behind the link too. -/
theorem StyleLink.hrefOf?_append (x : StyleLink) (hw : ∀ c ∈ w, isBlank c = true) :
    hrefOf? (x.chars ++ w) = x.attributes.href? := by
  obtain ⟨tag, attributes, -⟩ := x
  cases attributes with
  | relOnly before rel after =>
    have hend : Nowhere (opensAttribute "href") (['>'] ++ w) [] :=
      .cons rfl (nowhere_opensAttribute_blanks rfl (by decide) ⟨w, hw⟩ fun _ hc =>
        absurd hc (Option.not_mem_none _))
    have hnowhere : Nowhere (opensAttribute "href") (tag.chars ++ (before.chars ++ (rel.chars ++
        (after.chars ++ (['>'] ++ w))))) [] :=
      .append (nowhere_href_linkTag tag _) <|
        .append (before.nowhere (by decide) (rel.head.stops _).assoc.assoc) <|
        .append (rel.nowhere _) <|
        .append (after.nowhere (by decide) (stops_cons.mpr (by decide))) hend
    refine hrefOf?_of_nowhere (nowhere_opensQuotedHref ?_)
    simpa [chars, LinkAttributes.beforeRel, LinkAttributes.rel, LinkAttributes.afterRel] using hnowhere
  | relFirst before rel between href after =>
    have hnowhere (s : List Char) : Nowhere (opensAttribute "href") (tag.chars ++ (before.chars ++
        (rel.chars ++ between.chars))) (href.chars ++ s) :=
      .append (nowhere_href_linkTag tag _) <|
        .append (before.nowhere (by decide) (rel.head.stops _).assoc.assoc) <|
        .append (rel.nowhere _) (between.nowhere (by decide) (href.head.stops _).assoc)
    have hfound := Markup.hrefOf?_append href (hnowhere (after.chars ++ '>' :: w))
    simpa [chars, LinkAttributes.beforeRel, LinkAttributes.rel, LinkAttributes.afterRel,
      LinkAttributes.href?] using hfound
  | hrefFirst before href between rel after =>
    have hnowhere (s : List Char) : Nowhere (opensAttribute "href") (tag.chars ++ before.chars)
        (href.chars ++ s) :=
      .append (nowhere_href_linkTag tag _) (before.nowhere (by decide) (href.head.stops _).assoc)
    have hfound := Markup.hrefOf?_append href
      (hnowhere (between.chars ++ (rel.chars ++ (after.chars ++ '>' :: w))))
    simpa [chars, LinkAttributes.beforeRel, LinkAttributes.rel, LinkAttributes.afterRel,
      LinkAttributes.href?] using hfound

/-! ## Elements that a rule passes over -/

theorem exists_letters_of_tag (htag : tag ∈ ruledTags) :
    ∃ letter letters, tag.toList = '<' :: letter :: letters ∧ letter.toNat < 128 ∧ '/' ≠ letter := by
  rcases List.mem_pair.mp htag with rfl | rfl
  · exact ⟨'s', "cript".toList, rfl, by decide⟩
  · exact ⟨'l', "ink".toList, rfl, by decide⟩

theorem nowhere_tag_of_isInside (htag : tag ∈ ruledTags) (hw : ∀ c ∈ w, isInside c = true)
    (s : List Char) : Nowhere (beginsFolded tag.toList) w s := by
  obtain ⟨letter, letters, htag, -⟩ := exists_letters_of_tag htag
  exact htag ▸ nowhere_tag_of_not_mem (bracket_of_forall_isInside hw).1 _ s

theorem nowhere_closingBracket (htag : tag ∈ ruledTags) (s : List Char) :
    Nowhere (beginsFolded tag.toList) ['>'] s := by
  obtain ⟨letter, letters, htag, -⟩ := exists_letters_of_tag htag
  exact htag ▸ nowhere_tag_of_not_mem (by decide) _ s

theorem ClosingScript.nowhere (x : ClosingScript) (htag : tag ∈ ruledTags) (s : List Char) :
    Nowhere (beginsFolded tag.toList) x.chars s := by
  refine .append ?_ (.append (nowhere_tag_of_isInside htag (isInside_blanks x.gap) _)
    (nowhere_closingBracket htag s))
  obtain ⟨letter, letters, htag, hl, hne⟩ := exists_letters_of_tag htag
  exact htag ▸ nowhere_spelling x.tag.folds (by decide) ⟨hl, by decide⟩ hne _

theorem SourcedScript.nowhere_linkTag (x : SourcedScript) (s : List Char) :
    Nowhere (beginsFolded "<link".toList) x.chars s := by
  have htag := link_mem_ruledTags
  refine .append (nowhere_spelling x.tag.folds (by decide) (by decide) (by decide) _) <|
    .append (nowhere_tag_of_isInside htag (fun _ => x.before.isInside_of_mem) _) <|
    .append (nowhere_tag_of_isInside htag (fun _ => x.source.isInside_of_mem rfl) _) <|
    .append (nowhere_tag_of_isInside htag (fun _ => x.reference.isInside_of_mem) _) <|
    .append (nowhere_tag_of_isInside htag (fun _ => x.after.isInside_of_mem) _) ?_
  exact .append (u := ['>']) (nowhere_closingBracket htag _) <|
    .append (nowhere_tag_of_isInside htag (isInside_blanks x.inner) _) (x.closing.nowhere htag s)

namespace InlineScript

variable (x : InlineScript)

theorem nowhere_body (htag : tag ∈ ruledTags) (s : List Char) : Nowhere (beginsFolded tag.toList)
    (x.gap.chars ++ '>' :: (x.code.chars ++ x.closing.chars)) s := by
  refine .append (nowhere_tag_of_isInside htag (isInside_blanks x.gap) _) <|
    .append (u := ['>']) (nowhere_closingBracket htag _) <| .append ?_ (x.closing.nowhere htag s)
  obtain ⟨letter, letters, htag, -⟩ := exists_letters_of_tag htag
  exact htag ▸ nowhere_tag_of_not_mem (fun hm => absurd (x.code.all_ok _ hm) (by decide)) _ _

theorem nowhere_linkTag (s : List Char) : Nowhere (beginsFolded "<link".toList) x.chars s :=
  .append (nowhere_spelling x.tag.folds (by decide) (by decide) (by decide) _)
    (x.nowhere_body link_mem_ruledTags s)

/-- The rule for empty scripts reads nothing at any place of a script with its code. -/
theorem passes (last : Option Char) {a b : List Char} (hab : x.chars = a ++ b) (hb : b ≠ [])
    (s : List Char) : scriptReference.pattern.readAt last (b ++ s) = none := by
  cases a with
  | nil =>
    obtain rfl : x.chars = b := hab
    exact x.readAt_eq_none last s
  | cons c a =>
    have hbody := x.nowhere_body script_mem_ruledTags s
    have htag := x.tag.folds
    rw [chars] at hab
    generalize x.tag.chars = t at hab htag
    obtain _ | @⟨_, _, _, v, -, hv⟩ := htag
    have hname : Nowhere (beginsFolded "<script".toList) v
        (x.gap.chars ++ '>' :: (x.code.chars ++ x.closing.chars) ++ s) :=
      nowhere_tag_of_not_mem (fun hm => ne_lt_of_forall₂ (by decide) hv _ hm rfl) _ _
    exact (hname.append hbody).readAt_eq_none (beginsWhere_anyCase "<script" _)
      (List.cons.inj hab).2 hb

end InlineScript

theorem Rel.isInside_of_mem (x : Rel) (hc : c ∈ x.chars) : isInside c = true := by
  have hquote (hc : c ∈ x.quote.toList) : isInside c = true := isInside_of_isQuote (x.isQuote_of_mem hc)
  simp only [chars, List.mem_append] at hc
  rcases hc with hc | hc | hc | hc
  · exact x.head.isInside_of_mem rfl hc
  · exact hquote hc
  · exact x.value.isInside rfl c hc
  · exact hquote hc

theorem StyleLink.nowhere_scriptTag (x : StyleLink) (s : List Char) :
    Nowhere (beginsFolded "<script".toList) x.chars s := by
  have htag := script_mem_ruledTags
  exact .append (nowhere_spelling x.tag.folds (by decide) (by decide) (by decide) _) <|
    .append (nowhere_tag_of_isInside htag x.attributes.isInside_beforeRel _) <|
    .append (nowhere_tag_of_isInside htag (fun _ => x.attributes.rel.isInside_of_mem) _) <|
    .append (nowhere_tag_of_isInside htag x.attributes.isInside_afterRel _)
      (nowhere_closingBracket htag s)

end Workbench.Markup
