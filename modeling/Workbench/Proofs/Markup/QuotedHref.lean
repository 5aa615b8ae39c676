import Workbench.Proofs.Markup.TagParts

/-!
# The reference that is read in a link

The rule for references reads an `href` behind a blank, with a value between two quotes of either kind
that is not empty (`reads_hyperReference_iff`). The reference of a link is the first one that is read in
it, wherever that stands (`hrefOf?_of_first`), and a text in which none is read makes no difference
(`hrefOf?_append_of_nowhere`).
-/

namespace Workbench.Markup

open Pattern Script Text

variable {last : Option Char} {s u v w rest : List Char}

/-! ## References that are read -/

/-- An `href` as it is read: behind a blank, with a value between two quotes of either kind. -/
structure QuotedHref where
  head : AttributeHead "href"
  opening : Char
  opening_ok : isQuote opening = true
  value : Run fun c => !isQuote c
  value_ne : value.chars ≠ []
  closing : Char
  closing_ok : isQuote closing = true

namespace QuotedHref

variable (x : QuotedHref)

def text : String := String.ofList x.value.chars

def chars : List Char := x.head.chars ++ x.opening :: (x.value.chars ++ [x.closing])

theorem prefers : hyperReference.pattern.Prefers last x.chars rest
    [⟨1, x.value.chars ++ x.closing :: rest, x.value.chars.length⟩] := by
  have hvalue : ∀ c ∈ x.value.chars, isQuote c = false := fun c hc => by
    simpa using x.value.all_ok c hc
  have hstops : Stops isBlank (x.opening :: (x.value.chars ++ [x.closing]) ++ rest) :=
    stops_cons.mpr (isBlank_eq_false_of_isQuote x.opening_ok)
  have hread : hyperReference.pattern.Prefers last ([x.head.blank] ++ (x.head.name.chars ++
      (x.head.equalsSign ++ x.opening :: (x.value.chars ++ [x.closing])))) rest _ :=
    .andThen (.char x.head.blank_ok) <| .andThen (.anyCase x.head.name.folds) <|
      .andThen (x.head.prefers_equals hstops)
        (prefers_quotedReference x.opening_ok hvalue x.value_ne x.closing_ok)
  have hchars : [x.head.blank] ++ (x.head.name.chars ++ (x.head.equalsSign ++
      x.opening :: (x.value.chars ++ [x.closing]))) = x.chars := by
    simp [chars, AttributeHead.chars]
  exact hchars ▸ hread

end QuotedHref

/-- What is read for a reference is such an `href`. -/
theorem reads_hyperReference_iff :
    hyperReference.pattern.Reads last w rest ↔ ∃ x : QuotedHref, w = x.chars := by
  constructor
  · rintro ⟨_, _, rfl, ⟨b, hb, rfl⟩, name, _, rfl, hname, _, _, rfl, ⟨before, _, rfl, hbefore, _, after,
      rfl, ⟨d, hd, rfl⟩, hafter⟩, _, _, rfl, ⟨o, ho, rfl⟩, value, _, rfl, hvalue, c, hc, rfl⟩
    obtain ⟨first, more, rfl, hfirst, hmore⟩ := reads_some1.mp hvalue
    obtain rfl := eq_of_beq hd
    refine ⟨⟨⟨b, hb, ⟨name, (reads_anyCase _).mp hname⟩, ⟨before, hbefore⟩, ⟨after, hafter⟩⟩, o, ho,
      ⟨first :: more, List.forall_mem_cons.mpr ⟨hfirst, hmore⟩⟩, List.cons_ne_nil _ _, c, hc⟩, ?_⟩
    simp [QuotedHref.chars, AttributeHead.chars, AttributeHead.equalsSign]
  · rintro ⟨x, rfl⟩
    exact (reads_of_readAt (readAt_of_prefers x.prefers)).2

/-- An `href` is read here. -/
def opensQuotedHref (s : List Char) : Bool := (hyperReference.pattern.readAt none s).isSome

theorem opensQuotedHref_iff :
    opensQuotedHref s = true ↔ ∃ (x : QuotedHref) (rest : List Char), s = x.chars ++ rest := by
  rw [opensQuotedHref, ← Option.ne_none_iff_isSome, Ne, readAt_eq_none]
  push Not
  simp only [reads_hyperReference_iff]
  constructor
  · rintro ⟨w, rest, rfl, x, rfl⟩
    exact ⟨x, rest, rfl⟩
  · rintro ⟨x, rest, rfl⟩
    exact ⟨x.chars, rest, rfl, x, rfl⟩

theorem beginsWhere_hyperReference : hyperReference.pattern.BeginsWhere opensQuotedHref := by
  intro last w rest hr
  obtain ⟨x, rfl⟩ := reads_hyperReference_iff.mp hr
  exact opensQuotedHref_iff.mpr ⟨x, rest, rfl⟩

theorem opensAttribute_of_opensQuotedHref (h : opensQuotedHref s = true) :
    opensAttribute "href" s = true := by
  obtain ⟨x, rest, rfl⟩ := opensQuotedHref_iff.mp h
  have hread : hyperReference.pattern.Reads none x.chars rest := reads_hyperReference_iff.mpr ⟨x, rfl⟩
  exact beginsWhere_attribute "href" _ hread

theorem nowhere_opensQuotedHref (h : Nowhere (opensAttribute "href") u s) :
    Nowhere opensQuotedHref u s := by
  intro a b hab hb
  by_contra hn
  have hopens := opensAttribute_of_opensQuotedHref (by simpa using hn)
  exact Bool.false_ne_true ((h a b hab hb).symm.trans hopens)

/-- Either no `href` is read in a text, or one is the first. -/
theorem exists_first_or_nowhere (s : List Char) : Nowhere opensQuotedHref s [] ∨
    ∃ (u : List Char) (x : QuotedHref) (v : List Char), s = u ++ (x.chars ++ v) ∧
      Nowhere opensQuotedHref u (x.chars ++ v) := by
  induction s with
  | nil => exact .inl (.nil _ _)
  | cons c s ih =>
    cases hopens : opensQuotedHref (c :: s) with
    | true =>
      obtain ⟨x, rest, hs⟩ := opensQuotedHref_iff.mp hopens
      exact .inr ⟨[], x, rest, hs, .nil _ _⟩
    | false =>
      rcases ih with hnone | ⟨u, x, v, rfl, hu⟩
      · exact .inl (.cons (by rwa [List.append_nil]) hnone)
      · exact .inr ⟨c :: u, x, v, rfl, .cons hopens hu⟩

/-! ## The first reference -/

theorem hrefOf?_of_nowhere (h : Nowhere opensQuotedHref s []) : hrefOf? s = none := by
  have hnone : hyperReference.pattern.first? (String.ofList s) = none := by
    refine (first?_eq_none rfl).mpr fun a w b hab hr => ?_
    rw [String.toList_ofList] at hab
    have hn := h a (w ++ b) hab (by simp [hr.ne_nil rfl])
    rw [List.append_nil] at hn
    exact Bool.false_ne_true (hn.symm.trans (beginsWhere_hyperReference hr))
  rw [hrefOf?, hnone]
  rfl

theorem hrefOf?_of_first (x : QuotedHref) (h : Nowhere opensQuotedHref u (x.chars ++ v)) :
    hrefOf? (u ++ (x.chars ++ v)) = some x.text := by
  have hfirst := first?_of_readAt (p := hyperReference.pattern) rfl String.toList_ofList
    (fun a b hab hb => h.readAt_eq_none beginsWhere_hyperReference hab hb)
    (readAt_of_prefers x.prefers)
  rw [hrefOf?, hfirst, Option.map_some]
  exact congrArg (some ∘ String.ofList) List.take_left

theorem hrefOf?_append_of_nowhere (h : Nowhere opensQuotedHref u s) : hrefOf? (u ++ s) = hrefOf? s := by
  rcases exists_first_or_nowhere s with hnone | ⟨w, x, v, rfl, hw⟩
  · rw [hrefOf?_of_nowhere hnone, hrefOf?_of_nowhere (.append (by rwa [List.append_nil]) hnone)]
  · rw [hrefOf?_of_first x hw, ← List.append_assoc, hrefOf?_of_first x (h.append hw)]

end Workbench.Markup
