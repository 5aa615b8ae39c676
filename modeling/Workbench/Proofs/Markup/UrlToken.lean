import Workbench.Proofs.Markup.ScriptEnd
import Workbench.Proofs.Pattern.Delimited
import Workbench.Proofs.Pattern.Parts
import Workbench.Proofs.Text.Classes

/-!
# A quoted attribute and the `url(...)` around it

A `url(...)` holds at most two quotes, and before the first of two stand its name, its opening
bracket and blanks alone. So no `url(...)` runs over an attribute whose value is quoted and which
holds no bracket: the equals sign before the value is in the way (`IsAttribute.comesApart`). Nor does
one begin inside such an attribute (`IsAttribute.readAt`).
-/

namespace Workbench.Markup

open Pattern Script

variable {last : Option Char} {w rest x y a b : List Char} {c q : Char}

/-- A character that is neither a quote nor an equals sign. -/
def isOpen (c : Char) : Bool := !isQuote c && c != '='

theorem isOpen_of_ne (h : c ≠ '\'' ∧ c ≠ '"' ∧ c ≠ '=') : isOpen c = true := by
  simp [isOpen, isQuote, h]

theorem isOpen_of_isBlank (h : Text.isBlank c = true) : isOpen c = true := by
  refine isOpen_of_ne ⟨?_, ?_, ?_⟩ <;> (rintro rfl; exact absurd h (by decide))

theorem isQuote_eq_false_of_isOpen (h : isOpen c = true) : isQuote c = false := by
  rw [isOpen, Bool.and_eq_true, Bool.not_eq_true'] at h
  exact h.1

/-- Each character of a text in any letter case folds to one of its letters. -/
theorem exists_letter_of_mem {letters : List Char}
    (h : List.Forall₂ (fun letter c => foldsTo letter c = true) letters w) (hc : c ∈ w) :
    ∃ letter ∈ letters, foldsTo letter c = true := by
  induction h with
  | nil => exact absurd hc List.not_mem_nil
  | @cons letter d letters w hd hw ih =>
    rcases List.mem_cons.mp hc with rfl | hc
    · exact ⟨letter, List.mem_cons_self, hd⟩
    · obtain ⟨l, hl, hlc⟩ := ih hc
      exact ⟨l, List.mem_cons_of_mem letter hl, hlc⟩

/-! ## The parts of a `url(...)` -/

/-- The text before the first quote. -/
theorem takeWhile_not_isQuote {v z : List Char} (hv : v.countP isQuote = 0)
    (hq : isQuote q = true) : (v ++ q :: z).takeWhile (!isQuote ·) = v := by
  have hn : ∀ c ∈ v, (!isQuote c) = true := fun c hc => by
    simpa using List.countP_eq_zero.mp hv c hc
  exact takeWhile_run hn (stops_cons.mpr (by simp [hq]))

/-- A quote or nothing. -/
def IsMark (m : List Char) : Prop := m = [] ∨ ∃ q, isQuote q = true ∧ m = [q]

theorem IsMark.countP_le (h : IsMark x) : x.countP isQuote ≤ 1 := by
  rcases h with rfl | ⟨q, hq, rfl⟩ <;> simp [*]

/-- The texts that follow one another in a `url(...)`: the name with the opening bracket and blanks,
the quotes with the reference between them, and blanks before the end. -/
structure UrlParts where
  name : List Char
  lead : List Char
  opening : List Char
  reference : List Char
  closing : List Char
  trail : List Char
  name_folds : List.Forall₂ (fun letter c => foldsTo letter c = true) ['u', 'r', 'l', '('] name
  lead_blank : ∀ c ∈ lead, Text.isBlank c = true
  opening_mark : IsMark opening
  reference_plain : ∀ c ∈ reference, isQuote c = false
  closing_mark : IsMark closing
  trail_blank : ∀ c ∈ trail, Text.isBlank c = true

namespace UrlParts

/-- What stands before the opening quote. -/
def head (p : UrlParts) : List Char := p.name ++ p.lead

/-- What stands behind the opening quote. -/
def tail (p : UrlParts) : List Char := p.reference ++ (p.closing ++ (p.trail ++ [')']))

def text (p : UrlParts) : List Char := p.head ++ (p.opening ++ p.tail)

theorem exists_of_reads (h : urlToken.pattern.Reads last w rest) : ∃ p : UrlParts, w = p.text := by
  have hmark {last w rest} (h : (Pattern.optional (char isQuote)).Reads last w rest) : IsMark w := by
    rcases h with ⟨q, hq, rfl⟩ | rfl
    · exact .inr ⟨q, hq, rfl⟩
    · exact .inl rfl
  obtain ⟨name, _, rfl, hname, lead, _, rfl, hlead, m₁, _, rfl, hm₁, r, _, rfl, hr, m₂, _, rfl, hm₂,
    trail, _, rfl, htrail, d, hd, rfl⟩ := h
  obtain rfl := eq_of_beq hd
  have hplain : ∀ c ∈ r, isQuote c = false := by
    obtain ⟨c, v, rfl, hc, hv⟩ := reads_some1.mp hr
    have hr : ∀ d ∈ c :: v, (!isQuote d && d != ')') = true := List.forall_mem_cons.mpr ⟨hc, hv⟩
    intro d hd
    have hd := hr d hd
    rw [Bool.and_eq_true, Bool.not_eq_true'] at hd
    exact hd.1
  refine ⟨⟨name, lead, m₁, r, m₂, trail, (reads_anyCase "url(").mp hname, hlead, hmark hm₁, hplain,
    hmark hm₂, htrail⟩, ?_⟩
  simp only [text, head, tail, List.append_assoc]

variable (p : UrlParts)

theorem opening_mem_name : '(' ∈ p.name := by
  have h := p.name_folds
  generalize p.name = name at h
  obtain _ | ⟨-, _ | ⟨-, _ | ⟨-, _ | ⟨hc, -⟩⟩⟩⟩ := h
  simp [eq_of_foldsTo (by decide) hc]

theorem isOpen_of_mem_name (h : c ∈ p.name) : isOpen c = true := by
  obtain ⟨letter, hl, hc⟩ := exists_letter_of_mem p.name_folds h
  have hn (d : Char) (hd : ['u', 'r', 'l', '('].any (foldsTo · d) = false) : c ≠ d := by
    rintro rfl
    exact List.any_eq_false.mp hd letter hl hc
  exact isOpen_of_ne ⟨hn _ rfl, hn _ rfl, hn _ rfl⟩

theorem isOpen_of_mem_head (h : c ∈ p.head) : isOpen c = true :=
  (List.mem_append.mp h).elim p.isOpen_of_mem_name fun h => isOpen_of_isBlank (p.lead_blank c h)

theorem countP_head : p.head.countP isQuote = 0 := List.countP_eq_zero.mpr fun c hc => by
  simp [isQuote_eq_false_of_isOpen (p.isOpen_of_mem_head hc)]

theorem countP_tail_le : p.tail.countP isQuote ≤ 1 := by
  have h₁ : p.reference.countP isQuote = 0 := List.countP_eq_zero.mpr fun c hc => by
    simp [p.reference_plain c hc]
  have h₂ : p.trail.countP isQuote = 0 := List.countP_eq_zero.mpr fun c hc => by
    simp [isQuote_eq_false_of_isOpen (isOpen_of_isBlank (p.trail_blank c hc))]
  have h₃ : [')'].countP isQuote = 0 := rfl
  have h₄ := p.closing_mark.countP_le
  rw [tail, List.countP_append, List.countP_append, List.countP_append, h₁, h₂, h₃]
  omega

theorem getLast?_text : p.text.getLast? = some ')' := by
  simp only [text, tail, List.getLast?_append, List.getLast?_singleton, Option.some_or]

/-- Before the first of two quotes stand the name and blanks alone. -/
theorem head_eq {v z : List Char} (hw : p.text = v ++ q :: z) (hq : isQuote q = true)
    (hz : 0 < z.countP isQuote) : p.head = v := by
  have hh := p.countP_head
  have ht := p.countP_tail_le
  have hcount := congrArg (List.countP isQuote) hw
  rw [text, List.countP_append, List.countP_append, List.countP_append,
    List.countP_cons_of_pos hq] at hcount
  rcases p.opening_mark with ho | ⟨q', hq', ho⟩
  · -- without an opening quote there is only one
    rw [ho, List.countP_nil] at hcount
    omega
  · rw [ho, List.countP_singleton, if_pos hq'] at hcount
    have hv : v.countP isQuote = 0 := by omega
    have htake := takeWhile_not_isQuote (z := p.tail) hh hq'
    rw [← htake, ← takeWhile_not_isQuote hv hq, ← hw, text, ho]
    rfl

theorem eq_not_mem {v z : List Char} (hw : p.text = v ++ q :: z) (hq : isQuote q = true)
    (hz : 0 < z.countP isQuote) : '=' ∉ v := fun h =>
  absurd (p.isOpen_of_mem_head (p.head_eq hw hq hz ▸ h)) (by decide)

/-- If the bracket stands directly before the opening quote, the name is all that stands there. -/
theorem length_head (h : p.head.getLast? = some '(') : p.head.length = 4 := by
  rw [head] at h ⊢
  rcases List.eq_nil_or_concat p.lead with hl | ⟨l, c, hl⟩
  · rw [hl, List.append_nil]
    exact p.name_folds.length_eq.symm
  · rw [hl, List.concat_eq_append, ← List.append_assoc, List.getLast?_append, List.getLast?_singleton,
      Option.some_or] at h
    have hblank : Text.isBlank c = true := p.lead_blank c (by simp [hl])
    rw [Option.some.inj h] at hblank
    exact absurd hblank (by decide)

end UrlParts

/-- A `url(...)` ends with its only closing bracket. -/
theorem exists_of_reads_urlToken (h : urlToken.pattern.Reads last w rest) :
    ∃ v, w = v ++ [')'] ∧ ')' ∉ v := by
  obtain ⟨name, _, rfl, hname, lead, _, rfl, hlead, m₁, _, rfl, hm₁, r, _, rfl, hr, m₂, _, rfl, hm₂,
    trail, _, rfl, htrail, d, hd, rfl⟩ := h
  obtain rfl := eq_of_beq hd
  refine ⟨name ++ (lead ++ (m₁ ++ (r ++ (m₂ ++ trail)))), by simp, ?_⟩
  simp only [List.mem_append, not_or]
  exact ⟨hname.not_mem rfl, hlead.not_mem rfl, hm₁.not_mem rfl, hr.not_mem rfl, hm₂.not_mem rfl,
    htrail.not_mem rfl⟩

/-- No `url(...)` begins where no `u` stands. -/
theorem readAt_urlToken_eq_none (hw : w.any (foldsTo 'u') = false) (h : w = a ++ b) (hb : b ≠ []) :
    urlToken.pattern.readAt last (b ++ y) = none := by
  refine readAt_eq_none.mpr fun v rest hv hr => ?_
  obtain ⟨p, rfl⟩ := UrlParts.exists_of_reads hr
  obtain ⟨d, b, rfl⟩ := List.exists_cons_of_ne_nil hb
  have hname := p.name_folds
  rw [UrlParts.text, UrlParts.head] at hv
  generalize p.name = name at hv hname
  obtain _ | ⟨hc, -⟩ := hname
  obtain rfl := (List.cons.inj hv).1
  exact List.any_eq_false.mp hw d (by simp [h]) hc

/-! ## An attribute in the text -/

/-- An attribute with its value in quotes, without round brackets in it. -/
structure IsAttribute (a : List Char) : Prop where
  shape : ∃ name q value, isQuote q = true ∧ a = name ++ '=' :: q :: value ++ [q]
  noOpening : '(' ∉ a
  noClosing : ')' ∉ a

theorem urlToken_sectioned : urlToken.pattern.Sectioned := ⟨rfl, rfl, rfl⟩

/-- No `url(...)` runs over an attribute. -/
theorem IsAttribute.not_reads (ha : IsAttribute a) {z : List Char} :
    ¬ urlToken.pattern.Reads last (x ++ (a ++ z)) rest := by
  intro h
  obtain ⟨p, hp⟩ := UrlParts.exists_of_reads h
  obtain ⟨name, q, value, hq, rfl⟩ := ha.shape
  have hw : p.text = (x ++ (name ++ ['='])) ++ q :: (value ++ (q :: z)) := by
    rw [← hp]
    simp
  refine p.eq_not_mem hw hq ?_ (by simp)
  rw [List.countP_append, List.countP_cons_of_pos hq]
  omega

/-- No `url(...)` that begins before an attribute reaches into it. -/
theorem IsAttribute.comesApart (ha : IsAttribute a) :
    urlToken.pattern.ComesApart last x (a ++ y) := by
  refine comesApart_of_reads rfl ?_
  rintro x₁ x₂ rfl - w rest hw hread
  by_contra hlt
  -- the part of the reading that lies behind `x₂`
  obtain ⟨b, rfl, hb⟩ : ∃ b, w = x₂ ++ b ∧ a ++ y = b ++ rest := by
    rcases List.append_eq_append_iff.mp hw with h | ⟨b, rfl, -⟩
    · exact h
    · exact absurd (by simp) hlt
  rcases List.append_eq_append_iff.mp hb with ⟨z, rfl, -⟩ | ⟨z, rfl, -⟩
  · exact ha.not_reads hread
  · have hne : b ≠ [] := by
      rintro rfl
      simp at hlt
    obtain ⟨p, hp⟩ := UrlParts.exists_of_reads hread
    have hlast := p.getLast?_text
    rw [← hp, List.getLast?_append_of_ne_nil _ hne] at hlast
    exact ha.noClosing (List.mem_append_left z (List.mem_of_getLast? hlast))

/-- No `url(...)` begins in an attribute. -/
theorem IsAttribute.readAt (ha : IsAttribute a) (h : a = x ++ b) (hne : b ≠ []) :
    urlToken.pattern.readAt none (b ++ y) = none := by
  refine readAt_eq_none.mpr fun w rest hw hread => ?_
  obtain ⟨p, rfl⟩ := UrlParts.exists_of_reads hread
  rw [UrlParts.text, UrlParts.head, List.append_assoc, List.append_assoc] at hw
  rcases List.append_eq_append_iff.mp hw with ⟨z, hz, -⟩ | ⟨z, rfl, -⟩
  · -- the attribute ends with a quote, the name of a token holds none
    obtain ⟨name, q, value, hq, ha⟩ := ha.shape
    have hlast : b.getLast? = some q := by
      rw [← List.getLast?_append_of_ne_nil x hne, ← h, ha, List.getLast?_append,
        List.getLast?_singleton, Option.some_or]
    have hmem : q ∈ p.name := hz ▸ List.mem_append_left z (List.mem_of_getLast? hlast)
    exact Bool.false_ne_true ((isQuote_eq_false_of_isOpen (p.isOpen_of_mem_name hmem)).symm.trans hq)
  · refine ha.noOpening ?_
    rw [h]
    exact List.mem_append_right x (List.mem_append_left z p.opening_mem_name)

/-! ## Attributes that refer to assets -/

/-- The attributes that may refer to an asset. -/
def assetAttributes : List String := ["src", "href", "poster"]

/-- The blank before an attribute that may refer to an asset, and its name. -/
def attributeStart : Pattern := all [char Text.isBlank, anyOf (assetAttributes.map anyCase)]

theorem bodies_assetReference : bodies 1 assetReference.pattern = [attributeStart] ∧
    bodies 2 assetReference.pattern = [char isQuote] := ⟨rfl, rfl⟩

theorem not_mem_of_attributeStart {d : Char} (hb : Text.isBlank d = false)
    (hf : (assetAttributes.any fun name => name.toList.any (foldsTo · d)) = false)
    (h : attributeStart.Reads last w rest) : d ∉ w := by
  obtain ⟨_, v, rfl, ⟨c, hc, rfl⟩, hv⟩ := h
  obtain ⟨name, hname, hv⟩ : ∃ name ∈ assetAttributes,
      List.Forall₂ (fun letter c => foldsTo letter c = true) name.toList v := by
    rcases hv with hv | hv | hv
    · exact ⟨"src", by decide, (reads_anyCase _).mp hv⟩
    · exact ⟨"href", by decide, (reads_anyCase _).mp hv⟩
    · exact ⟨"poster", by decide, (reads_anyCase _).mp hv⟩
  intro hd
  rcases List.mem_append.mp hd with hd | hd
  · obtain rfl := List.mem_singleton.mp hd
    exact Bool.false_ne_true (hb.symm.trans hc)
  · obtain ⟨letter, hl, hfold⟩ := exists_letter_of_mem hv hd
    have hname := List.any_eq_false.mp hf name hname
    exact hname (List.any_eq_true.mpr ⟨letter, hl, hfold⟩)

/-- What is written for a reference to an asset is an attribute, whatever its value. -/
theorem isAttribute_of_readAt {s : List Char} {h : Hit}
    (hr : assetReference.pattern.readAt last s = some h) (value : List Char) (ho : '(' ∉ value)
    (hc : ')' ∉ value) :
    IsAttribute (h.groupText 1 ++ '=' :: h.groupText 2 ++ value ++ h.groupText 2) := by
  obtain ⟨hb₁, hb₂⟩ := bodies_assetReference
  obtain ⟨p₁, hp₁, last₁, rest₁, h₁⟩ := reads_groupText (n := 1) hr (by decide) rfl
  obtain ⟨p₂, hp₂, last₂, rest₂, h₂⟩ := reads_groupText (n := 2) hr (by decide) rfl
  rw [hb₁, List.mem_singleton] at hp₁
  rw [hb₂, List.mem_singleton] at hp₂
  subst hp₁ hp₂
  obtain ⟨q, hq, hg⟩ := h₂
  have hn (d : Char) (hb : Text.isBlank d = false) (heq : d ≠ '=') (hdq : isQuote d = false)
      (hf : (assetAttributes.any fun name => name.toList.any (foldsTo · d)) = false)
      (hv : d ∉ value) : d ∉ h.groupText 1 ++ '=' :: h.groupText 2 ++ value ++ h.groupText 2 := by
    have hne : d ≠ q := by
      rintro rfl
      exact Bool.false_ne_true (hdq.symm.trans hq)
    simp [hg, heq, hne, hv, not_mem_of_attributeStart hb hf h₁]
  refine ⟨⟨h.groupText 1, q, value, hq, by simp [hg]⟩, ?_, ?_⟩
  · exact hn '(' (by decide) (by decide) rfl rfl ho
  · exact hn ')' (by decide) (by decide) rfl rfl hc

end Workbench.Markup
