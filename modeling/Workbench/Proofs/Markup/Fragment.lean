import Mathlib.Data.List.Chain
import Mathlib.Data.List.TakeWhile
import Workbench.Proofs.Markup.ScriptReference
import Workbench.Proofs.Markup.TagParts

/-!
# Fragments of markup

A fragment is text with elements in it: scripts with their code, empty scripts with a source, and links
to style sheets. Each is built so that it is well formed. The text between two elements opens no element
of its own and leaves no bracket open at its end, so it may be joined with more text (`Prose.append`)
and lose its beginning (`Prose.ofSuffix`).

* `Fragment.without` leaves elements out, each with the blanks and the one line end behind it.
* `Fragment.drop` does the same, and what is left is a fragment again (`render_drop`).
* `without_drop`: leaving out elements of two kinds one after the other is leaving them out at once, if
  the elements of the later kind stand apart from those of the earlier kind behind them (`Separate`).
-/

namespace Workbench.Markup

open Pattern Script Text

variable {s t u w rest : List Char} {tag : String} {c : Char}

/-! ## Text between elements -/

/-- Each opening bracket has a closing one behind it. -/
def closesTags : List Char → Bool
  | [] => true
  | c :: rest => (c != '<' || rest.contains '>') && closesTags rest

theorem closesTags_append (hs : closesTags s = true) (ht : closesTags t = true) :
    closesTags (s ++ t) = true := by
  induction s with
  | nil => exact ht
  | cons c s ih =>
    obtain ⟨hc, hs⟩ := Bool.and_eq_true _ _ ▸ hs
    show ((c != '<' || (s ++ t).contains '>') && closesTags (s ++ t)) = true
    rw [ih hs, Bool.and_true, Bool.or_eq_true]
    exact (Bool.or_eq_true _ _ ▸ hc).imp_right fun h => by simp_all

theorem closesTags_of_append (h : closesTags (s ++ t) = true) : closesTags t = true := by
  induction s with
  | nil => exact h
  | cons c s ih => exact ih (Bool.and_eq_true _ _ ▸ h).2

theorem mem_of_closesTags (h : closesTags (s ++ '<' :: t) = true) : '>' ∈ t := by
  obtain ⟨hclosed, -⟩ := Bool.and_eq_true _ _ ▸ closesTags_of_append h
  simpa using hclosed

/-- The beginnings of the tags that the rules look for. -/
def ruledTags : List String := ["<script", "<link"]

theorem script_mem_ruledTags : "<script" ∈ ruledTags := by decide

theorem link_mem_ruledTags : "<link" ∈ ruledTags := by decide

/-- A ruled tag begins with a bracket, and its name holds none. -/
theorem exists_of_folds_tag (htag : tag ∈ ruledTags)
    (h : List.Forall₂ (fun letter c => foldsTo letter c = true) tag.toList w) :
    ∃ v, w = '<' :: v ∧ '>' ∉ w := by
  have hclosing : '>' ∉ w := fun hm => by
    obtain ⟨letter, hl, hfold⟩ := exists_letter_of_mem h hm
    have hnone : ∀ tag ∈ ruledTags, tag.toList.any (foldsTo · '>') = false := by decide
    exact List.any_eq_false.mp (hnone tag htag) letter hl hfold
  have hfirst : ∀ tag ∈ ruledTags, tag.toList.head? = some '<' := by decide
  have htag := hfirst tag htag
  generalize tag.toList = letters at h htag
  cases h with
  | nil => cases htag
  | cons hc hv =>
    obtain rfl := Option.some.inj htag
    exact ⟨_, by rw [eq_of_foldsTo (by decide) hc], hclosing⟩

/-- Text without the tags that the rules look for, in which each bracket is closed. -/
structure Prose where
  chars : List Char
  closes : closesTags chars = true
  untagged : ruledTags.all (fun tag => !(anyCase tag).occursIn (String.ofList chars)) = true

theorem takesSome_tag : ∀ tag ∈ ruledTags, (anyCase tag).takesSome = true := by decide

/-- No tag occurs in a text exactly when none begins at a place of it. -/
theorem occursIn_tag_eq_false_iff (htag : tag ∈ ruledTags) :
    (!(anyCase tag).occursIn (String.ofList s)) = true ↔ Nowhere (beginsFolded tag.toList) s [] := by
  rw [Bool.not_eq_true', ← Bool.not_eq_true, occursIn_iff (takesSome_tag tag htag),
    String.toList_ofList]
  constructor
  · intro h a b hab hb
    by_contra hn
    rw [List.append_nil, Bool.not_eq_false, beginsFolded_iff] at hn
    obtain ⟨w, rest, rfl, hw⟩ := hn
    exact h ⟨a, w, rest, hab, (reads_anyCase tag).mpr hw⟩
  · rintro h ⟨a, w, rest, hab, hw⟩
    have hw := (reads_anyCase tag).mp hw
    obtain ⟨v, rfl, -⟩ := exists_of_folds_tag htag hw
    have hn := h a _ hab (List.cons_ne_nil _ _)
    rw [List.append_nil] at hn
    exact Bool.false_ne_true (hn.symm.trans (beginsFolded_iff.mpr ⟨_, rest, rfl, hw⟩))

namespace Prose

variable (x y : Prose)

/-- No tag begins in the text, whatever follows it. -/
theorem nowhere (htag : tag ∈ ruledTags) (s : List Char) :
    Nowhere (beginsFolded tag.toList) x.chars s := by
  intro a b hab hb
  by_contra hn
  obtain ⟨w, rest, hsplit, hw⟩ := beginsFolded_iff.mp (by simpa using hn)
  rcases List.append_eq_append_iff.mp hsplit with ⟨z, rfl, -⟩ | ⟨z, rfl, -⟩
  · -- the tag runs over the end of the text, where its bracket was closed
    obtain ⟨c, b, rfl⟩ := List.exists_cons_of_ne_nil hb
    obtain ⟨v, hv, hclosing⟩ := exists_of_folds_tag htag hw
    obtain rfl : c = '<' := (List.cons.inj hv).1
    have hclosed := mem_of_closesTags (hab ▸ x.closes)
    exact hclosing (by simp [hclosed])
  · have hnone := (occursIn_tag_eq_false_iff htag).mp (List.all_eq_true.mp x.untagged tag htag)
    have hn := hnone a _ hab hb
    rw [List.append_assoc] at hn
    exact Bool.false_ne_true (hn.symm.trans (beginsFolded_iff.mpr ⟨w, z ++ [], rfl, hw⟩))

/-- No text. -/
def empty : Prose := ⟨[], rfl, by decide⟩

/-- The two texts together. -/
def append : Prose where
  chars := x.chars ++ y.chars
  closes := closesTags_append x.closes y.closes
  untagged := List.all_eq_true.mpr fun _ htag => (occursIn_tag_eq_false_iff htag).mpr <|
    .append (x.nowhere htag _) (y.nowhere htag [])

/-- The end of the text. -/
def ofSuffix (h : s <:+ x.chars) : Prose where
  chars := s
  closes := by
    obtain ⟨a, ha⟩ := h
    exact closesTags_of_append (ha ▸ x.closes)
  untagged := List.all_eq_true.mpr fun _ htag => (occursIn_tag_eq_false_iff htag).mpr fun a b hab hb =>
    (h.elim fun p hp => x.nowhere htag [] (p ++ a) b (by rw [← hp, hab, List.append_assoc]) hb)

end Prose

/-! ## What stands behind an element -/

theorem afterLineEnd_suffix (s : List Char) : afterLineEnd s <:+ s := by
  obtain ⟨w, hs, -⟩ := exists_prefers_blankTail s
  exact ⟨w, hs.symm⟩

theorem afterLineBreak_cons (c : Char) (s : List Char) : afterLineBreak (c :: s) =
    if c = '\n' then s else if c = '\r' ∧ s.head? = some '\n' then s.tail else c :: s := by
  unfold afterLineBreak
  split
  · rename_i heq
    obtain ⟨rfl, rfl⟩ := List.cons.inj heq
    simp
  · rename_i heq
    obtain ⟨rfl, rfl⟩ := List.cons.inj heq
    simp
  · rename_i hcr hlf
    rw [if_neg (by rintro rfl; exact hlf s rfl), if_neg]
    rintro ⟨rfl, hs⟩
    obtain ⟨s', rfl⟩ := List.head?_eq_some_iff.mp hs
    exact hcr s' rfl

theorem afterLineBreak_of_stops (h : Stops isBlank s) : afterLineBreak s = s := by
  cases s with
  | nil => rfl
  | cons c s =>
    have hc := stops_cons.mp h
    rw [afterLineBreak_cons, if_neg, if_neg]
    · rintro ⟨rfl, -⟩
      exact absurd hc (by decide)
    · rintro rfl
      exact absurd hc (by decide)

theorem afterLineBreak_append (ht : t ≠ []) (h : t ≠ ['\r'] ∨ Stops isBlank s) :
    afterLineBreak (t ++ s) = afterLineBreak t ++ s := by
  obtain ⟨c, r, rfl⟩ := List.exists_cons_of_ne_nil ht
  rw [List.cons_append, afterLineBreak_cons, afterLineBreak_cons]
  cases r with
  | nil =>
    by_cases hc : c = '\r'
    · subst hc
      have hs : Stops isBlank s := h.resolve_left (· rfl)
      have hhead : s.head? ≠ some '\n' := fun hn => absurd (hs _ hn) (by decide)
      simp [hhead]
    · by_cases hn : c = '\n' <;> simp [hc, hn]
  | cons d r =>
    by_cases hn : c = '\n'
    · simp [hn]
    · by_cases hd : c = '\r' ∧ d = '\n' <;> simp [hn, hd]

/-- The line end behind an element is found in the text there, if this text holds a character besides
indent blanks and carriage returns or no blank follows it. -/
theorem afterLineEnd_append (h : (t.any fun c => !isIndent c && c != '\r') = true ∨ Stops isBlank s) :
    afterLineEnd (t ++ s) = afterLineEnd t ++ s := by
  unfold afterLineEnd
  by_cases hall : t.dropWhile isIndent = []
  · have hindent : ∀ c ∈ t, isIndent c = true := List.dropWhile_eq_nil_iff.mp hall
    have hs : Stops isBlank s := by
      refine h.resolve_left fun hany => ?_
      obtain ⟨c, hc, hsolid⟩ := List.any_eq_true.mp hany
      simp [hindent c hc] at hsolid
    have hkeep : Stops isIndent s := fun c hc => Bool.eq_false_iff.mpr fun hi =>
      Bool.false_ne_true ((hs c hc).symm.trans (isBlank_of_isIndent hi))
    rw [dropWhile_run hindent hkeep, hall, afterLineBreak_of_stops hs]
    rfl
  · rw [List.dropWhile_append, if_neg (by simpa using hall)]
    refine afterLineBreak_append hall (h.imp_left fun hany hcr => ?_)
    obtain ⟨c, hc, hsolid⟩ := List.any_eq_true.mp hany
    rw [← List.takeWhile_append_dropWhile (p := isIndent) (l := t), hcr, List.mem_append,
      List.mem_singleton] at hc
    rcases hc with hc | rfl
    · simp [List.all_eq_true.mp List.all_takeWhile c hc] at hsolid
    · exact absurd hsolid (by decide)

/-! ## Elements -/

/-- The closing tag of a script. -/
structure ClosingScript where
  tag : Spelling "</script"
  gap : Blanks

def ClosingScript.chars (x : ClosingScript) : List Char := x.tag.chars ++ (x.gap.chars ++ ['>'])

/-- A script with its code. -/
structure InlineScript where
  tag : Spelling "<script"
  gap : Blanks
  code : Run (· != '<')
  closing : ClosingScript

def InlineScript.chars (x : InlineScript) : List Char :=
  x.tag.chars ++ (x.gap.chars ++ '>' :: (x.code.chars ++ x.closing.chars))

/-- An empty script with a source. -/
structure SourcedScript where
  tag : Spelling "<script"
  before : Others
  edge : before.chars.head?.any isWord = false
  source : AttributeHead "src"
  reference : Reference
  after : Others
  inner : Blanks
  closing : ClosingScript

/-- What stands in the element behind the source. -/
def SourcedScript.tail (x : SourcedScript) : List Char :=
  x.after.chars ++ '>' :: (x.inner.chars ++ x.closing.chars)

def SourcedScript.chars (x : SourcedScript) : List Char :=
  x.tag.chars ++ (x.before.chars ++ (x.source.chars ++ (x.reference.chars ++ x.tail)))

/-- The attribute of a link to a style sheet that says so. Its value may be quoted. -/
structure Rel where
  head : AttributeHead "rel"
  quote : Option Char
  quote_ok : quote.all isQuote = true
  value : Spelling "stylesheet"

def Rel.chars (x : Rel) : List Char :=
  x.head.chars ++ (x.quote.toList ++ (x.value.chars ++ x.quote.toList))

/-- The attribute of a link that holds its reference. -/
structure Href where
  head : AttributeHead "href"
  reference : Reference

def Href.chars (x : Href) : List Char := x.head.chars ++ x.reference.chars

/-- The attributes of a link to a style sheet: its reference may be missing, or stand on either side. -/
inductive LinkAttributes where
  | relOnly (before : Others) (rel : Rel) (after : Others)
  | relFirst (before : Others) (rel : Rel) (between : Others) (href : Href) (after : Others)
  | hrefFirst (before : Others) (href : Href) (between : Others) (rel : Rel) (after : Others)

namespace LinkAttributes

/-- The attributes before all that the rules ask for. -/
def before : LinkAttributes → Others
  | relOnly before _ _ => before
  | relFirst before _ _ _ _ => before
  | hrefFirst before _ _ _ _ => before

def rel : LinkAttributes → Rel
  | relOnly _ rel _ => rel
  | relFirst _ rel _ _ _ => rel
  | hrefFirst _ _ _ rel _ => rel

/-- What stands before the attribute that makes the link one to a style sheet. -/
def beforeRel : LinkAttributes → List Char
  | relOnly before _ _ => before.chars
  | relFirst before _ _ _ _ => before.chars
  | hrefFirst before href between _ _ => before.chars ++ (href.chars ++ between.chars)

/-- What stands behind it. -/
def afterRel : LinkAttributes → List Char
  | relOnly _ _ after => after.chars
  | relFirst _ _ between href after => between.chars ++ (href.chars ++ after.chars)
  | hrefFirst _ _ _ _ after => after.chars

/-- The reference of the link. -/
def href? : LinkAttributes → Option String
  | relOnly _ _ _ => none
  | relFirst _ _ _ href _ => some href.reference.text
  | hrefFirst _ href _ _ _ => some href.reference.text

end LinkAttributes

/-- A link to a style sheet. -/
structure StyleLink where
  tag : Spelling "<link"
  attributes : LinkAttributes
  edge : attributes.before.chars.head?.any isWord = false

def StyleLink.chars (x : StyleLink) : List Char :=
  x.tag.chars ++ (x.attributes.beforeRel ++ (x.attributes.rel.chars ++ (x.attributes.afterRel ++ ['>'])))

inductive Element where
  | inline (x : InlineScript)
  | script (x : SourcedScript)
  | link (x : StyleLink)

namespace Element

def chars : Element → List Char
  | inline x => x.chars
  | script x => x.chars
  | link x => x.chars

/-- A script whose source is one of the project's. -/
def isOwnScript : Element → Bool
  | script x => isLocalScript x.reference.text
  | _ => false

/-- A link to a style sheet of the project, or to none at all. -/
def isOwnLink : Element → Bool
  | link x => !x.attributes.href?.any isExternal
  | _ => false

theorem exists_chars_cons (e : Element) : ∃ v, e.chars = '<' :: v := by
  have hopen {tag : String} {letters w s : List Char} (htag : tag.toList = '<' :: letters)
      (h : List.Forall₂ (fun letter c => foldsTo letter c = true) tag.toList w) :
      ∃ v, w ++ s = '<' :: v := by
    rw [htag] at h
    obtain _ | ⟨hc, -⟩ := h
    rw [eq_of_foldsTo (by decide) hc]
    exact ⟨_, rfl⟩
  cases e with
  | inline x => exact hopen rfl x.tag.folds
  | script x => exact hopen rfl x.tag.folds
  | link x => exact hopen rfl x.tag.folds

end Element

/-! ## Fragments -/

/-- Text, and elements with the text behind each. -/
structure Fragment where
  lead : Prose
  items : List (Element × Prose)

namespace Fragment

variable {items : List (Element × Prose)} {gone gone' : Element → Bool}

/-- What is left of the elements and the text behind them when some elements are left out, each with the
blanks and the one line end behind it. -/
def withoutItems (gone : Element → Bool) (items : List (Element × Prose)) : List Char :=
  items.flatMap fun (e, t) =>
    if gone e then afterLineEnd t.chars else e.chars ++ t.chars

/-- The text of the fragment without some of its elements. -/
def without (gone : Element → Bool) (F : Fragment) : String :=
  String.ofList (F.lead.chars ++ withoutItems gone F.items)

/-- The text of the fragment. -/
def render (F : Fragment) : String := F.without fun _ => false

/-- The text that joins the text before when elements are left out, and the elements that stay. -/
def dropItems (gone : Element → Bool) : List (Element × Prose) → Prose × List (Element × Prose)
  | [] => (.empty, [])
  | (e, t) :: items =>
    let (joined, kept) := dropItems gone items
    if gone e then ((t.ofSuffix (afterLineEnd_suffix t.chars)).append joined, kept)
    else (.empty, (e, t.append joined) :: kept)

/-- The fragment without some of its elements. -/
def drop (gone : Element → Bool) (F : Fragment) : Fragment :=
  let (joined, kept) := dropItems gone F.items
  ⟨F.lead.append joined, kept⟩

theorem withoutItems_cons (gone : Element → Bool) (e : Element) (t : Prose)
    (items : List (Element × Prose)) : withoutItems gone ((e, t) :: items) =
      (if gone e then afterLineEnd t.chars else e.chars ++ t.chars) ++ withoutItems gone items := by
  rw [withoutItems, List.flatMap_cons]
  rfl

/-- Where an element of the second kind stands before one of the first kind, the text between the two
holds a character besides indent blanks and carriage returns. A line end is enough. -/
def Separate (gone gone' : Element → Bool) (items : List (Element × Prose)) : Prop :=
  items.IsChain fun x y => gone' x.1 = true → gone y.1 = true →
    (x.2.chars.any fun c => !isIndent c && c != '\r') = true

/-- Nothing joins the text before if no element comes first or one that stays does. -/
theorem dropItems_joined (h : ∀ x ∈ items.head?, gone x.1 = false) :
    (dropItems gone items).1 = .empty := by
  cases items with
  | nil => rfl
  | cons x items => simp [dropItems, h x rfl]

/-- Leaving out elements of a second kind from what is left is leaving out both at once. -/
theorem withoutItems_dropItems (h : Separate gone gone' items) :
    (dropItems gone items).1.chars ++ withoutItems gone' (dropItems gone items).2 =
      withoutItems (fun e => gone e || gone' e) items := by
  induction items with
  | nil => rfl
  | cons x items ih =>
    obtain ⟨e, t⟩ := x
    have ih := ih h.tail
    rw [withoutItems_cons, ← ih]
    cases hg : gone e with
    | true => simp [dropItems, hg, Prose.append, Prose.ofSuffix]
    | false =>
      cases hg' : gone' e with
      | false => simp [dropItems, hg, hg', Prose.append, Prose.empty, withoutItems_cons]
      | true =>
        -- the text that joins is not looked at when the line end behind the element is taken off
        have hjoin : afterLineEnd (t.chars ++ (dropItems gone items).1.chars) =
            afterLineEnd t.chars ++ (dropItems gone items).1.chars := by
          refine afterLineEnd_append ?_
          by_cases hnext : ∀ y ∈ items.head?, gone y.1 = false
          · rw [dropItems_joined hnext]
            exact .inr fun _ hc => absurd hc (Option.not_mem_none _)
          · push Not at hnext
            obtain ⟨y, hy, hgone⟩ := hnext
            obtain ⟨ys, rfl⟩ := List.head?_eq_some_iff.mp hy
            exact .inl ((List.isChain_cons_cons.mp h).1 hg' (by simpa using hgone))
        simp [dropItems, hg, hg', Prose.append, Prose.empty, withoutItems_cons, hjoin]

theorem without_drop {F : Fragment} (h : Separate gone gone' F.items) :
    (F.drop gone).without gone' = F.without fun e => gone e || gone' e := by
  rw [without, without, ← withoutItems_dropItems h]
  exact congrArg String.ofList (List.append_assoc ..)

theorem render_drop (gone : Element → Bool) (F : Fragment) : (F.drop gone).render = F.without gone := by
  have hseparate : Separate gone (fun _ => false) F.items :=
    List.Pairwise.isChain (List.pairwise_of_forall fun _ _ h => absurd h Bool.false_ne_true)
  rw [render, without_drop hseparate]
  simp only [Bool.or_false]

end Fragment

end Workbench.Markup
