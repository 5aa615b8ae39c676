import Workbench.Proofs.Markup.UrlToken
import Workbench.Proofs.Pattern.First

/-!
# Attributes that refer to assets

An attribute that is read can be read in one way only: a blank, the name, an equals sign between
blanks, and a reference without quotes between two quotes, which need not be the same
(`AttributeParts`). So what is found is known from the text (`AttributeParts.exists_of_readAt`).
-/

namespace Workbench.Markup

open Pattern Script

variable {last : Option Char} {s t w rest : List Char} {h : Hit}

/-- The texts that follow one another in an attribute that may refer to an asset. -/
structure AttributeParts where
  blank : Char
  name : List Char
  before : List Char
  after : List Char
  opening : Char
  reference : List Char
  closing : Char
  blank_blank : Text.isBlank blank = true
  name_folds : ∃ letters ∈ assetAttributes,
    List.Forall₂ (fun letter c => foldsTo letter c = true) letters.toList name
  before_blank : ∀ c ∈ before, Text.isBlank c = true
  after_blank : ∀ c ∈ after, Text.isBlank c = true
  opening_quote : isQuote opening = true
  reference_plain : ∀ c ∈ reference, isQuote c = false
  closing_quote : isQuote closing = true

namespace AttributeParts

/-- What stands before the closing quote. -/
def unclosed (p : AttributeParts) : List Char :=
  p.blank :: p.name ++ (p.before ++ ('=' :: (p.after ++ (p.opening :: p.reference))))

def text (p : AttributeParts) : List Char := p.unclosed ++ [p.closing]

/-- What the groups read. -/
def captures (p : AttributeParts) (rest : List Char) : List Capture :=
  [⟨3, p.reference ++ p.closing :: rest, p.reference.length⟩,
    ⟨2, p.opening :: (p.reference ++ p.closing :: rest), 1⟩,
    ⟨1, p.text ++ rest, p.name.length + 1⟩]

theorem exists_of_reads (h : assetReference.pattern.Reads last w rest) :
    ∃ p : AttributeParts, w = p.text := by
  obtain ⟨_, _, rfl, ⟨_, name, rfl, ⟨c, hc, rfl⟩, hname⟩, _, _, rfl, ⟨before, _, rfl, hbefore, _, after,
    rfl, ⟨d, hd, rfl⟩, hafter⟩, _, _, rfl, ⟨q, hq, rfl⟩, reference, _, rfl, hreference, q', hq', rfl⟩ := h
  obtain rfl := eq_of_beq hd
  have hfolds : ∃ letters ∈ assetAttributes,
      List.Forall₂ (fun letter c => foldsTo letter c = true) letters.toList name := by
    rcases hname with hname | hname | hname
    · exact ⟨"src", by decide, (reads_anyCase _).mp hname⟩
    · exact ⟨"href", by decide, (reads_anyCase _).mp hname⟩
    · exact ⟨"poster", by decide, (reads_anyCase _).mp hname⟩
  refine ⟨⟨c, name, before, after, q, reference, q', hc, hfolds, hbefore, hafter, hq,
    fun c hm => by simpa using hreference c hm, hq'⟩, ?_⟩
  simp [text, unclosed]

theorem isQuote_eq_false_of_mem_name (p : AttributeParts) {c : Char} (h : c ∈ p.name) :
    isQuote c = false := by
  obtain ⟨letters, hletters, hname⟩ := p.name_folds
  obtain ⟨letter, hl, hc⟩ := exists_letter_of_mem hname h
  by_contra hq
  have hnone : ∀ letters ∈ assetAttributes, letters.toList.any (foldsTo · '\'') = false ∧
      letters.toList.any (foldsTo · '"') = false := by decide
  obtain ⟨hsingle, hdouble⟩ := hnone letters hletters
  rcases isQuote_iff.mp (by simpa using hq) with rfl | rfl
  · exact List.any_eq_false.mp hsingle letter hl hc
  · exact List.any_eq_false.mp hdouble letter hl hc

/-- Before the closing quote stands only the opening one. -/
theorem countP_unclosed (p : AttributeParts) : p.unclosed.countP isQuote = 1 := by
  have hblank {s : List Char} (hs : ∀ c ∈ s, Text.isBlank c = true) : s.countP isQuote = 0 :=
    List.countP_eq_zero.mpr fun c hc => by
      simp [isQuote_eq_false_of_isOpen (isOpen_of_isBlank (hs c hc))]
  have hname : p.name.countP isQuote = 0 := List.countP_eq_zero.mpr fun c hc => by
    simp [p.isQuote_eq_false_of_mem_name hc]
  have hreference : p.reference.countP isQuote = 0 := List.countP_eq_zero.mpr fun c hc => by
    simp [p.reference_plain c hc]
  have hfirst : isQuote p.blank = false := isQuote_eq_false_of_isOpen (isOpen_of_isBlank p.blank_blank)
  have hequals : isQuote '=' = false := by decide
  simp [unclosed, hname, hblank p.before_blank, hblank p.after_blank, hreference,
    hfirst, hequals, p.opening_quote]

/-- If the text goes on behind the name with an equals sign, the opening quote and `w`, the reference
begins with `w`. -/
theorem prefix_reference (p : AttributeParts) (hw : ∀ c ∈ w, (!isQuote c) = true)
    (h : p.blank :: p.name ++ '=' :: p.opening :: w <+: p.text ++ rest) : w <+: p.reference := by
  have h : '=' :: p.opening :: w <+:
      p.before ++ '=' :: (p.after ++ p.opening :: (p.reference ++ p.closing :: rest)) := by
    simpa [text, unclosed] using h
  have hbefore : p.before = [] := by
    refine List.eq_nil_iff_forall_not_mem.mpr fun c hc => ?_
    obtain ⟨d, b, hb⟩ := List.exists_cons_of_ne_nil (List.ne_nil_of_mem hc)
    rw [hb, List.cons_append, List.cons_prefix_cons] at h
    have hd := p.before_blank d (by simp [hb])
    rw [← h.1] at hd
    exact absurd hd (by decide)
  rw [hbefore, List.nil_append, List.cons_prefix_cons] at h
  have hafter : p.after = [] := by
    refine List.eq_nil_iff_forall_not_mem.mpr fun c hc => ?_
    obtain ⟨d, b, hb⟩ := List.exists_cons_of_ne_nil (List.ne_nil_of_mem hc)
    rw [hb, List.cons_append, List.cons_prefix_cons] at h
    have hd := p.after_blank d (by simp [hb])
    rw [← h.2.1, isBlank_eq_false_of_isQuote p.opening_quote] at hd
    exact Bool.false_ne_true hd
  rw [hafter, List.nil_append, List.cons_prefix_cons] at h
  exact prefix_of_stops h.2.2 hw (stops_cons.mpr (by simp [p.closing_quote]))

/-- How the names begin. -/
theorem exists_name_eq (p : AttributeParts) : ∃ c₁ c₂ name, p.name = c₁ :: c₂ :: name ∧
    (foldsTo 's' c₁ = true ∧ foldsTo 'r' c₂ = true ∨ foldsTo 'h' c₁ = true ∨ foldsTo 'p' c₁ = true) := by
  obtain ⟨letters, hletters, hname⟩ := p.name_folds
  generalize p.name = name at hname
  simp only [assetAttributes, List.mem_cons, List.not_mem_nil, or_false] at hletters
  rcases hletters with rfl | rfl | rfl
  · obtain _ | ⟨h₁, _ | ⟨h₂, -⟩⟩ := hname
    exact ⟨_, _, _, rfl, .inl ⟨h₁, h₂⟩⟩
  · obtain _ | ⟨h₁, _ | ⟨-, -⟩⟩ := hname
    exact ⟨_, _, _, rfl, .inr (.inl h₁)⟩
  · obtain _ | ⟨h₁, _ | ⟨-, -⟩⟩ := hname
    exact ⟨_, _, _, rfl, .inr (.inr h₁)⟩

/-- A name is not read as another one, which begins with another letter. -/
theorem not_reads_anyCase {letter other : Char} {letters others : List Char} {name : String}
    (hw : List.Forall₂ (fun letter c => foldsTo letter c = true) (letter :: letters) w)
    (hl : letter.toNat < 128 ∧ other.toNat < 128) (hn : letter ≠ other)
    (hname : name.toList = other :: others) (u v : List Char) (he : w ++ rest = u ++ v) :
    ¬ (anyCase name).Reads last u v := by
  intro hu
  rw [reads_anyCase, hname] at hu
  obtain _ | ⟨hc, -⟩ := hw
  obtain _ | ⟨hd, -⟩ := hu
  obtain rfl := (List.cons.inj he).1
  exact hn (eq_of_foldsTo_of_foldsTo hc hd hl.1 hl.2)

theorem prefers_name (p : AttributeParts) :
    (anyOf [anyCase "src", anyCase "href", anyCase "poster"]).Prefers last p.name rest [] := by
  obtain ⟨letters, hletters, hname⟩ := p.name_folds
  simp only [assetAttributes, List.mem_cons, List.not_mem_nil, or_false] at hletters
  rcases hletters with rfl | rfl | rfl
  · exact .left (.anyCase hname)
  · exact .right (not_reads_anyCase hname (by decide) (by decide) rfl) (.left (.anyCase hname))
  · exact .right (not_reads_anyCase hname (by decide) (by decide) rfl) <|
      .right (not_reads_anyCase hname (by decide) (by decide) rfl) (.anyCase hname)

/-- The attribute is read as its parts. -/
theorem prefers (p : AttributeParts) :
    assetReference.pattern.Prefers last p.text rest (p.captures rest) := by
  have hname (v : List Char) : (group 1 (all [char Text.isBlank, anyOf [anyCase "src", anyCase "href",
      anyCase "poster"]])).Prefers last (p.blank :: p.name) v _ :=
    .group 1 (.andThen (u := [p.blank]) (.char p.blank_blank) p.prefers_name)
  have hequals (last : Option Char) : equals.Prefers last (p.before ++ ('=' :: p.after))
      (p.opening :: (p.reference ++ [p.closing]) ++ rest) [] :=
    .andThen (.many p.before_blank (stops_cons.mpr (by decide))) <|
      .andThen (u := ['=']) (.char rfl) <|
        .many p.after_blank (stops_cons.mpr (isBlank_eq_false_of_isQuote p.opening_quote))
  have hopening (last : Option Char) : (group 2 (char isQuote)).Prefers last [p.opening]
      (p.reference ++ [p.closing] ++ rest) _ := .group 2 (.char p.opening_quote)
  have hreference (last : Option Char) : (group 3 (many fun c => !isQuote c)).Prefers last p.reference
      ([p.closing] ++ rest) _ :=
    .group 3 (.many (fun c hc => by simp [p.reference_plain c hc])
      (stops_cons.mpr (by simp [p.closing_quote])))
  have hread : assetReference.pattern.Prefers last _ rest _ :=
    (hname _).seq ((hequals _).andThen ((hopening _).seq ((hreference _).seq (.char p.closing_quote))))
  simpa [text, unclosed, captures] using hread

/-- What is found where the attribute stands. -/
def hit (p : AttributeParts) (rest : List Char) : Hit := ⟨p.text, p.captures rest, rest⟩

@[simp] theorem groupText_one (p : AttributeParts) (rest : List Char) :
    (p.hit rest).groupText 1 = p.blank :: p.name := by
  simp [Hit.groupText, Hit.group?, hit, captures, text, unclosed]

@[simp] theorem groupText_two (p : AttributeParts) (rest : List Char) :
    (p.hit rest).groupText 2 = [p.opening] := by
  simp [Hit.groupText, Hit.group?, hit, captures]

@[simp] theorem groupText_three (p : AttributeParts) (rest : List Char) :
    (p.hit rest).groupText 3 = p.reference := by
  simp [Hit.groupText, Hit.group?, hit, captures]

theorem readAt_text (p : AttributeParts) (last : Option Char) (rest : List Char) :
    assetReference.pattern.readAt last (p.text ++ rest) = some (p.hit rest) :=
  readAt_of_prefers p.prefers

/-- What is read is an attribute. -/
theorem exists_of_readAt (hr : assetReference.pattern.readAt last s = some h) :
    ∃ p : AttributeParts, h = p.hit h.after := by
  obtain ⟨hs, hread⟩ := reads_of_readAt hr
  obtain ⟨p, hp⟩ := exists_of_reads hread
  rw [hs, hp, p.readAt_text] at hr
  exact ⟨p, (Option.some.inj hr).symm⟩

end AttributeParts

theorem assetReference_sectioned : assetReference.pattern.Sectioned := ⟨rfl, rfl, rfl⟩

/-- No attribute begins where no blank stands. -/
theorem readAt_assetReference_eq_none {a b : List Char} (hw : w.any Text.isBlank = false)
    (h : w = a ++ b) (hb : b ≠ []) : assetReference.pattern.readAt last (b ++ s) = none := by
  refine readAt_eq_none.mpr fun v rest hv hr => ?_
  obtain ⟨p, rfl⟩ := AttributeParts.exists_of_reads hr
  obtain ⟨d, b, rfl⟩ := List.exists_cons_of_ne_nil hb
  obtain rfl : d = p.blank := (List.cons.inj hv).1
  exact List.any_eq_false.mp hw _ (by simp [h]) p.blank_blank

/-! ## Where readings end -/

theorem endsOutside_urlToken (ht : ')' ∉ t) : urlToken.pattern.EndsOutside t := by
  intro last w rest c hr hc
  obtain ⟨p, rfl⟩ := UrlParts.exists_of_reads hr
  rw [p.getLast?_text] at hc
  exact Option.some.inj hc ▸ ht

theorem endsOutside_assetReference (ht : t.any isQuote = false) :
    assetReference.pattern.EndsOutside t := by
  intro last w rest c hr hc hm
  obtain ⟨p, rfl⟩ := AttributeParts.exists_of_reads hr
  rw [AttributeParts.text, List.getLast?_append, List.getLast?_singleton, Option.some_or] at hc
  obtain rfl := Option.some.inj hc
  exact List.any_eq_false.mp ht _ hm p.closing_quote

end Workbench.Markup
