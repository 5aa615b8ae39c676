import Workbench.Proofs.Markup.External
import Workbench.Proofs.Markup.Stripped

/-!
# Links to remote style sheets

A link to a style sheet stays exactly if the first `href` between two quotes that is read in it is
external. That need not be the attribute the link has: a value without quotes is not read, so a link to
a remote style sheet whose `href` is written in this way goes with the local ones
(`not_forall_remote_link_stays`). Neither is an empty value; and a text like an `href` in the value of an
attribute before it is read in its place.

`remote_link_stays_iff` is the exact condition. An external `href` in quotes that is not empty keeps its
link unless another one is read before it; in any other spelling the link stays exactly if what is
behind the attribute keeps it.
-/

namespace Workbench.Markup

open Pattern Script Text

variable {last : Option Char} {s u v w rest : List Char} {ps qs : List Piece} {h : Hit}

/-! ## The first reference -/

/-- The first `href` that is read in the text is external. -/
def FirstIsExternal (s : List Char) : Prop :=
  ∃ (u : List Char) (x : QuotedHref) (v : List Char), s = u ++ (x.chars ++ v) ∧
    Nowhere opensQuotedHref u (x.chars ++ v) ∧ isExternal x.text = true

theorem any_isExternal_hrefOf?_iff : (hrefOf? s).any isExternal = true ↔ FirstIsExternal s := by
  constructor
  · intro h
    rcases exists_first_or_nowhere s with hnone | ⟨u, x, v, rfl, hu⟩
    · rw [hrefOf?_of_nowhere hnone] at h
      exact absurd h Bool.false_ne_true
    · rw [hrefOf?_of_first x hu, Option.any_some] at h
      exact ⟨u, x, v, rfl, hu, h⟩
  · rintro ⟨u, x, v, rfl, hu, hx⟩
    rw [hrefOf?_of_first x hu, Option.any_some, hx]

theorem firstIsExternal_append_iff (h : Nowhere opensQuotedHref u s) :
    FirstIsExternal (u ++ s) ↔ FirstIsExternal s := by
  rw [← any_isExternal_hrefOf?_iff, ← any_isExternal_hrefOf?_iff, hrefOf?_append_of_nowhere h]

/-! ## The spellings of an attribute -/

/-- A character of a value without quotes. -/
def isBare (c : Char) : Bool := !isBlank c && c != '>'

/-- The value of an attribute: between two quotes of one kind, or without quotes. -/
inductive AttributeValue where
  | quoted (quote : Char) (quote_ok : isQuote quote = true) (value : Run (· != quote))
  | bare (first : Char) (first_ok : isBare first = true ∧ isQuote first = false) (more : Run isBare)

namespace AttributeValue

/-- The value as it is written. -/
def chars : AttributeValue → List Char
  | quoted quote _ value => quote :: (value.chars ++ [quote])
  | bare first _ more => first :: more.chars

/-- The value without its quotes. -/
def text : AttributeValue → String
  | quoted _ _ value => String.ofList value.chars
  | bare first _ more => String.ofList (first :: more.chars)

/-- A value without quotes ends with the next blank or closing bracket. -/
def EndsBefore : AttributeValue → List Char → Prop
  | quoted .., _ => True
  | bare .., rest => Stops isBare rest

/-- The value is one that can be read. -/
def IsReadable : AttributeValue → Prop
  | quoted _ _ value => value.chars ≠ []
  | bare .. => False

variable (x : AttributeValue)

theorem stops_isBlank (s : List Char) : Stops isBlank (x.chars ++ s) := by
  cases x with
  | quoted q hq value => exact stops_cons.mpr (isBlank_eq_false_of_isQuote hq)
  | bare first hfirst more =>
    have hbare := hfirst.1
    simp only [isBare, Bool.and_eq_true, Bool.not_eq_true'] at hbare
    exact stops_cons.mpr hbare.1

end AttributeValue

/-- An `href` in any of the spellings. -/
structure HrefAttribute where
  head : AttributeHead "href"
  value : AttributeValue

def HrefAttribute.chars (x : HrefAttribute) : List Char := x.head.chars ++ x.value.chars

/-- What begins with the name of the attribute is not external. -/
theorem LeadsOut.beginsFolded_href (h : LeadsOut w) (s : List Char) :
    beginsFolded "href".toList (w ++ s) = false := by
  obtain ⟨start, hstart, hw⟩ := h
  by_contra hn
  obtain ⟨name, rest, hsplit, hname⟩ := beginsFolded_iff.mp (by simpa using hn)
  rw [forall₂_foldsTo_iff (by decide)] at hname
  have hlower := congrArg (List.map Char.toLower) hsplit
  rw [List.map_append, List.map_append, hw, hname] at hlower
  have hnone : ∀ start ∈ externalStarts,
    (start.toList.isPrefixOf "href".toList || "href".toList.isPrefixOf start.toList) = false := by decide
  have hnone := hnone start hstart
  rw [Bool.or_eq_false_iff, ← Bool.not_eq_true, ← Bool.not_eq_true, List.isPrefixOf_iff_prefix,
    List.isPrefixOf_iff_prefix] at hnone
  exact (List.prefix_or_prefix_of_prefix ⟨_, hlower⟩ ⟨_, rfl⟩).elim hnone.1 hnone.2

namespace AttributeValue

/-- A value that cannot be read holds no blank. -/
theorem isBlank_eq_false_of_mem {x : AttributeValue} (hr : ¬ x.IsReadable) :
    ∀ c ∈ x.chars, isBlank c = false := by
  cases x with
  | quoted q hq value =>
    have hempty : value.chars = [] := by simpa [IsReadable] using hr
    intro c hc
    have hc : c = q := by simpa [chars, hempty] using hc
    exact hc ▸ isBlank_eq_false_of_isQuote hq
  | bare first hfirst more =>
    have hbare : ∀ c ∈ first :: more.chars, isBare c = true :=
      List.forall_mem_cons.mpr ⟨hfirst.1, more.all_ok⟩
    intro c hc
    have hok := hbare c hc
    simp only [isBare, Bool.and_eq_true, Bool.not_eq_true'] at hok
    exact hok.1

/-- An external value that cannot be read does not begin with the name of the attribute. -/
theorem beginsFolded_href {x : AttributeValue} (hx : isExternal x.text = true) (hr : ¬ x.IsReadable)
    (s : List Char) : beginsFolded "href".toList (x.chars ++ s) = false := by
  have hblank := isBlank_eq_false_of_mem hr
  cases x with
  | quoted q hq value =>
    refine beginsFolded_eq_false (stops_cons.mpr ?_)
    rcases isQuote_iff.mp hq with rfl | rfl <;> rfl
  | bare first hfirst more =>
    have hfirst : isBlank first = false := hblank first List.mem_cons_self
    rcases isExternal_iff.mp hx with hall | ⟨b, w, y, hsplit, hb, hw⟩
    · exact absurd (hall first List.mem_cons_self) (by simp [hfirst])
    · cases b with
      | nil =>
        rw [chars, hsplit, List.nil_append, List.append_assoc]
        exact hw.beginsFolded_href _
      | cons d b =>
        obtain ⟨rfl, -⟩ := List.cons.inj hsplit
        exact absurd (hb first List.mem_cons_self) (by simp [hfirst])

/-- A value that cannot be read does not begin like one that is read. -/
theorem ne_quoted {x : AttributeValue} (hr : ¬ x.IsReadable) (y : QuotedHref) (s t : List Char) :
    x.chars ++ s ≠ y.opening :: (y.value.chars ++ [y.closing]) ++ t := by
  intro h
  cases x with
  | quoted q hq value =>
    have hempty : value.chars = [] := by simpa [IsReadable] using hr
    obtain ⟨c, w, hw⟩ := List.exists_cons_of_ne_nil y.value_ne
    have hc : (!isQuote c) = true := y.value.all_ok c (hw ▸ List.mem_cons_self)
    simp only [chars, hempty, hw, List.nil_append, List.cons_append, List.cons.injEq] at h
    rw [← h.2.1, hq] at hc
    exact Bool.false_ne_true hc
  | bare first hfirst more =>
    obtain ⟨rfl, -⟩ := List.cons.inj h
    exact Bool.false_ne_true (hfirst.2.symm.trans y.opening_ok)

end AttributeValue

namespace HrefAttribute

variable {x : HrefAttribute}

/-- An external value that can be read is read up to its first quote, and is external still. -/
theorem exists_quotedHref (hx : isExternal x.value.text = true) (hr : x.value.IsReadable)
    (v : List Char) :
    ∃ (y : QuotedHref) (rest : List Char), x.chars ++ v = y.chars ++ rest ∧
      isExternal y.text = true := by
  obtain ⟨head, value⟩ := x
  cases value with
  | bare first hfirst more => exact hr.elim
  | quoted q hq value =>
    obtain ⟨c, rest, hrest, hc⟩ : ∃ c rest,
        (value.chars.dropWhile fun c => !isQuote c) ++ q :: v = c :: rest ∧ isQuote c = true := by
      have hstops := stops_dropWhile (fun c => !isQuote c) value.chars
      cases hdrop : value.chars.dropWhile fun c => !isQuote c with
      | nil => exact ⟨q, v, rfl, hq⟩
      | cons c z =>
        rw [hdrop] at hstops
        exact ⟨c, _, rfl, by simpa using stops_cons.mp hstops⟩
    refine ⟨⟨head, q, hq, ⟨_, List.all_eq_true.mp List.all_takeWhile⟩,
      takeWhile_ne_nil_of_isExternal hx hr, c, hc⟩, rest, ?_, isExternal_takeWhile hx⟩
    have hvalue := List.takeWhile_append_dropWhile (p := fun c => !isQuote c) (l := value.chars)
    simp only [chars, AttributeValue.chars, QuotedHref.chars, List.append_assoc, List.cons_append,
      List.nil_append]
    rw [← hrest, ← List.append_assoc (List.takeWhile _ _), hvalue]

/-- Nothing is read in an attribute with an external value that cannot be read. -/
theorem nowhere (hx : isExternal x.value.text = true) (hr : ¬ x.value.IsReadable) (v : List Char) :
    Nowhere opensQuotedHref x.chars v := by
  have hhead : opensQuotedHref (x.chars ++ v) = false := by
    by_contra hn
    obtain ⟨y, rest, hsplit⟩ := opensQuotedHref_iff.mp (by simpa using hn)
    rw [chars, QuotedHref.chars, List.append_assoc, List.append_assoc] at hsplit
    have hstops : Stops isBlank (y.opening :: (y.value.chars ++ [y.closing]) ++ rest) :=
      stops_cons.mpr (isBlank_eq_false_of_isQuote y.opening_ok)
    have hvalue := AttributeHead.eq_of_append_eq (x.value.stops_isBlank v) hstops hsplit
    exact AttributeValue.ne_quoted hr y v rest hvalue
  have htail := x.head.nowhere_tail rfl (by decide) rfl (AttributeValue.beginsFolded_href hx hr v)
  have hvalue := nowhere_opensAttribute (AttributeValue.isBlank_eq_false_of_mem hr) "href" v
  exact .cons hhead ((nowhere_opensQuotedHref htail).append (nowhere_opensQuotedHref hvalue))

end HrefAttribute

/-! ## Which links stay -/

/-- The link between the pieces `ps` and `qs` of a fragment without local scripts stays. -/
def LinkStays (fragment : String) (ps : List Piece) (h : Hit) (qs : List Piece) : Prop :=
  (dropLocalReferences fragment).toList =
    ps.flatMap (Piece.write keptLink) ++ (h.text ++ qs.flatMap (Piece.write keptLink))

/-- The link is left out. -/
def LinkGoes (fragment : String) (ps qs : List Piece) : Prop :=
  (dropLocalReferences fragment).toList =
    ps.flatMap (Piece.write keptLink) ++ qs.flatMap (Piece.write keptLink)

theorem toList_dropLocalReferences {fragment : String}
    (hcut : styleReference.pattern.cut (dropLocalScripts fragment).toList = ps ++ .hit h :: qs) :
    (dropLocalReferences fragment).toList =
      ps.flatMap (Piece.write keptLink) ++ (keptLink h ++ qs.flatMap (Piece.write keptLink)) := by
  have hreplace := toList_replace styleReference.pattern keptLink (dropLocalScripts fragment)
  rw [hcut, List.flatMap_append, List.flatMap_cons] at hreplace
  exact hreplace

theorem linkStays_iff {fragment : String}
    (hcut : styleReference.pattern.cut (dropLocalScripts fragment).toList = ps ++ .hit h :: qs) :
    (LinkStays fragment ps h qs ↔ FirstIsExternal h.text) ∧
      (LinkGoes fragment ps qs ↔ ¬ FirstIsExternal h.text) := by
  have hne : h.text ≠ [] := text_ne_nil_of_cut_eq rfl hcut
  rw [LinkStays, LinkGoes, toList_dropLocalReferences hcut, List.append_cancel_left_eq,
    List.append_cancel_left_eq, List.append_cancel_right_eq, List.append_left_eq_self,
    ← any_isExternal_hrefOf?_iff, keptLink]
  split
  · rename_i hkept
    exact ⟨iff_of_true rfl hkept, iff_of_false hne (not_not_intro hkept)⟩
  · rename_i hkept
    exact ⟨iff_of_false (Ne.symm hne) hkept, iff_of_true rfl hkept⟩

/-- A link stays exactly if the first `href` between quotes that is read in it is external, and is left
out otherwise. For an attribute with an external value before which none is read, in any spelling, the
link stays exactly if the value is in quotes and not empty or the text behind it keeps the link. -/
theorem remote_link_stays_iff {fragment : String}
    (hcut : styleReference.pattern.cut (dropLocalScripts fragment).toList = ps ++ .hit h :: qs) :
    (LinkStays fragment ps h qs ↔ FirstIsExternal h.text) ∧
    (LinkGoes fragment ps qs ↔ ¬ LinkStays fragment ps h qs) ∧
    ∀ (x : HrefAttribute) (u v : List Char), h.text = u ++ (x.chars ++ v) →
      isExternal x.value.text = true → Nowhere opensQuotedHref u (x.chars ++ v) →
      (LinkStays fragment ps h qs ↔ x.value.IsReadable ∨ FirstIsExternal v) := by
  obtain ⟨hstays, hgoes⟩ := linkStays_iff hcut
  refine ⟨hstays, hgoes.trans (not_congr hstays.symm), fun x u v htext hx hu => ?_⟩
  rw [hstays, htext]
  by_cases hr : x.value.IsReadable
  · obtain ⟨y, rest, hsplit, hy⟩ := HrefAttribute.exists_quotedHref hx hr v
    exact iff_of_true ⟨u, y, rest, by rw [hsplit], hsplit ▸ hu, hy⟩ (.inl hr)
  · rw [firstIsExternal_append_iff hu, firstIsExternal_append_iff (HrefAttribute.nowhere hx hr v)]
    exact (or_iff_right hr).symm

theorem isBlank_space : isBlank ' ' = true := rfl

/-- An `href` as it is usually written, behind one blank. -/
def hrefWith (value : AttributeValue) : HrefAttribute :=
  ⟨⟨' ', isBlank_space, .plain "href" rfl, .empty isBlank, .empty isBlank⟩, value⟩

/-- A link whose `href` stands in quotes stays. -/
theorem remote_link_stays_iff_quoted :
    let tag := "<link href='https://cdn.example.com/a.css' rel=stylesheet>"
    let href := hrefWith (.quoted '\'' rfl ⟨"https://cdn.example.com/a.css".toList,
      List.all_eq_true.mp (by decide)⟩)
    styleReference.pattern.cut (dropLocalScripts tag).toList = [] ++ .hit ⟨tag.toList, [], []⟩ :: [] ∧
      tag.toList = "<link".toList ++ (href.chars ++ " rel=stylesheet>".toList) ∧
      isExternal href.value.text = true ∧
      Nowhere opensQuotedHref "<link".toList (href.chars ++ " rel=stylesheet>".toList) ∧
      LinkStays tag [] ⟨tag.toList, [], []⟩ [] := by
  intro tag href
  have hcut : styleReference.pattern.cut (dropLocalScripts tag).toList =
      [] ++ .hit ⟨tag.toList, [], []⟩ :: [] := by decide +kernel
  have htext : tag.toList = "<link".toList ++ (href.chars ++ " rel=stylesheet>".toList) := by decide
  have hexternal : isExternal href.value.text = true := by decide
  have hnowhere : Nowhere opensQuotedHref "<link".toList (href.chars ++ " rel=stylesheet>".toList) :=
    nowhere_opensQuotedHref (nowhere_href_linkTag (.plain "<link" rfl) _)
  have hiff := (remote_link_stays_iff hcut).2.2 href "<link".toList " rel=stylesheet>".toList htext
    hexternal hnowhere
  exact ⟨hcut, htext, hexternal, hnowhere, hiff.mpr (.inl (List.cons_ne_nil _ _))⟩

/-- A link whose `href` stands without quotes is left out, though nothing stands before it. -/
theorem not_forall_remote_link_stays :
    ¬ ∀ (fragment : String) (ps qs : List Piece) (h : Hit) (x : HrefAttribute) (v : List Char),
      styleReference.pattern.cut (dropLocalScripts fragment).toList = ps ++ .hit h :: qs →
      h.text = "<link".toList ++ (x.chars ++ v) → x.value.EndsBefore v →
      isExternal x.value.text = true → LinkStays fragment ps h qs := by
  intro hstays
  let tag := "<link href=https://cdn.example.com/a.css rel=stylesheet>"
  let href := hrefWith (.bare 'h' (by decide) ⟨"ttps://cdn.example.com/a.css".toList,
    List.all_eq_true.mp (by decide)⟩)
  have hcut : styleReference.pattern.cut (dropLocalScripts tag).toList =
      [] ++ .hit ⟨tag.toList, [], []⟩ :: [] := by decide +kernel
  have hkept := hstays tag [] [] ⟨tag.toList, [], []⟩ href " rel=stylesheet>".toList hcut (by decide)
    (stops_cons.mpr (by decide)) (by decide)
  rw [LinkStays] at hkept
  revert hkept
  decide +kernel

end Workbench.Markup
