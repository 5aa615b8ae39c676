import Mathlib.Data.List.Forall2
import Workbench.Markup.Element
import Workbench.Proofs.Markup.ScriptEnd
import Workbench.Proofs.Pattern.First
import Workbench.Proofs.Text.Classes
import Workbench.Proofs.Text.Occurrence
import Workbench.Proofs.Text.Trim

/-!
# The body of a page, described without rules

`plainBody` says what the body of a page is by cutting the text at tags, from left to right: behind the
first opening `body` tag, before the first closing one, or else before the end of the page. It knows no
pattern. The three rules that find the body agree with it on every text (`bodyOf_eq_plainBody`).

* An opening tag that is never closed is not tried again further on, for what stands behind a later one
  stands behind the first one too (`IsBodyTag.exists_behind`).
* Without a closing `body` tag the rule for the end of a page takes off blanks and at most one closing
  `html` tag (`apply_pageTail`).
-/

namespace Workbench.Markup

open Pattern Script Text

variable {last : Option Char} {s u v w rest opening : List Char}

/-! ## The description -/

/-- The text cut before the first place, short of its end, where the condition holds. -/
def cutBefore? (here : List Char → Bool) : List Char → Option (List Char × List Char)
  | [] => none
  | c :: rest =>
    if here (c :: rest) then some ([], c :: rest)
    else (cutBefore? here rest).map fun (before, after) => (c :: before, after)

/-- The beginning of an opening `body` tag, in lower case. -/
def bodyOpening : List Char := ['<', 'b', 'o', 'd', 'y']

/-- The beginning of a closing `body` tag, in lower case. -/
def bodyClosing : List Char := ['<', '/', 'b', 'o', 'd', 'y']

/-- The beginning of a closing `html` tag, in lower case. -/
def pageClosing : List Char := ['<', '/', 'h', 't', 'm', 'l']

/-- A `body` tag opens here: its name is not a part of a longer word, and a bracket stands behind. -/
def opensBody (s : List Char) : Bool :=
  beginsAnyCase bodyOpening s && !(s.drop bodyOpening.length).head?.any isWord && s.contains '>'

/-- The text behind the first closing bracket. -/
def behindBracket (s : List Char) : List Char := (s.dropWhile (· != '>')).drop 1

/-- The text behind the closing tag that begins here. Blanks may stand before its bracket. -/
def behindClosing? (opening s : List Char) : Option (List Char) :=
  if beginsAnyCase opening s then
    match (s.drop opening.length).dropWhile isBlank with
    | '>' :: rest => some rest
    | _ => none
  else none

/-- The text without the blanks at its end, and without a closing `html` tag that it then ends with and
the blanks before this tag. -/
def withoutPageEnd (s : List Char) : List Char :=
  match cutBefore? (fun t => behindClosing? pageClosing t == some []) (dropBlankTail s) with
  | some (before, _) => dropBlankTail before
  | none => dropBlankTail s

/-- The content of the body. -/
def plainBody (html : List Char) : List Char :=
  match cutBefore? opensBody html with
  | none => html
  | some (_, opened) =>
    let inner := behindBracket opened
    match cutBefore? (fun t => (behindClosing? bodyClosing t).isSome) inner with
    | some (content, _) => content
    | none => withoutPageEnd inner

theorem cutBefore?_eq_some {here : List Char → Bool} (h : cutBefore? here s = some (u, v)) :
    s = u ++ v ∧ here v = true ∧ ∀ a b, u = a ++ b → b ≠ [] → here (b ++ v) = false := by
  induction s generalizing u with
  | nil => cases h
  | cons c s ih =>
    rw [cutBefore?] at h
    split at h
    · rename_i hc
      cases h
      refine ⟨rfl, hc, fun a b hab hb => absurd ?_ hb⟩
      exact (List.append_eq_nil_iff.mp hab.symm).2
    · rename_i hc
      obtain ⟨⟨u', v'⟩, hu, he⟩ := Option.map_eq_some_iff.mp h
      cases he
      obtain ⟨rfl, hv, hn⟩ := ih hu
      refine ⟨rfl, hv, fun a b hab hb => ?_⟩
      cases a with
      | nil =>
        obtain rfl : c :: u' = b := hab
        simpa using hc
      | cons d a => exact hn a b (List.cons.inj hab).2 hb

theorem cutBefore?_eq_none {here : List Char → Bool} (h : cutBefore? here s = none) :
    ∀ a b, s = a ++ b → b ≠ [] → here b = false := by
  induction s with
  | nil =>
    intro a b hab hb
    exact absurd (List.append_eq_nil_iff.mp hab.symm).2 hb
  | cons c s ih =>
    rw [cutBefore?] at h
    split at h
    · cases h
    · rename_i hc
      intro a b hab hb
      cases a with
      | nil =>
        obtain rfl : c :: s = b := hab
        simpa using hc
      | cons d a => exact ih (Option.map_eq_none_iff.mp h) a b (List.cons.inj hab).2 hb

/-! ## Tags -/

/-- A closing tag. -/
def IsClosingTag (opening w : List Char) : Prop :=
  ∃ name blanks, w = name ++ (blanks ++ ['>']) ∧ name.map Char.toLower = opening ∧
    ∀ c ∈ blanks, isBlank c = true

/-- An opening `body` tag. -/
def IsBodyTag (w : List Char) : Prop :=
  ∃ name inside, w = name ++ (inside ++ ['>']) ∧ name.map Char.toLower = bodyOpening ∧
    '>' ∉ inside ∧ Stops isWord (inside ++ ['>'])

/-- Behind a bracket no later character counts for what stops. -/
theorem stops_bracket {ok : Char → Bool} {inside v : List Char} :
    Stops ok (inside ++ '>' :: v) ↔ Stops ok (inside ++ ['>']) := by
  cases inside <;> rfl

theorem isBlank_bracket : isBlank '>' = false := by decide

theorem behindClosing?_eq_some_iff :
    behindClosing? opening s = some rest ↔ ∃ w, s = w ++ rest ∧ IsClosingTag opening w := by
  unfold behindClosing?
  constructor
  · intro h
    split at h
    · rename_i hb
      obtain ⟨name, t, rfl, rfl⟩ := beginsAnyCase_iff.mp hb
      rw [List.length_map, List.drop_left] at h
      split at h
      · rename_i after ht
        obtain rfl := Option.some.inj h
        refine ⟨name ++ (t.takeWhile isBlank ++ ['>']), ?_, name, _, rfl, rfl,
          List.all_eq_true.mp List.all_takeWhile⟩
        rw [List.append_assoc, List.append_assoc, List.singleton_append, ← ht,
          List.takeWhile_append_dropWhile]
      · cases h
    · cases h
  · rintro ⟨_, rfl, name, blanks, rfl, rfl, hblank⟩
    have hb : beginsAnyCase (name.map Char.toLower) (name ++ (blanks ++ ['>']) ++ rest) = true :=
      beginsAnyCase_iff.mpr ⟨name, _, List.append_assoc .., rfl⟩
    have hdrop : (blanks ++ ('>' :: rest)).dropWhile isBlank = '>' :: rest :=
      dropWhile_run hblank (stops_cons.mpr isBlank_bracket)
    rw [if_pos hb, List.length_map, List.append_assoc, List.drop_left, List.append_assoc,
      List.singleton_append]
    simp only [hdrop]

theorem IsClosingTag.ne_nil (h : IsClosingTag opening w) : w ≠ [] := by
  obtain ⟨name, blanks, rfl, -⟩ := h
  simp

theorem IsClosingTag.getLast? (h : IsClosingTag opening w) : w.getLast? = some '>' := by
  obtain ⟨name, blanks, rfl, -⟩ := h
  simp

theorem reads_closingTag {name : String} (h : 's' ∉ ("</" ++ name).toList ∧
    'k' ∉ ("</" ++ name).toList) :
    (closingTag name).Reads last w rest ↔ IsClosingTag ("</" ++ name).toList w := by
  constructor
  · rintro ⟨tag, _, rfl, htag, blanks, _, rfl, hblank, c, hc, rfl⟩
    obtain rfl := eq_of_beq hc
    exact ⟨tag, blanks, rfl, (forall₂_foldsTo_iff h).mp ((reads_anyCase _).mp htag), hblank⟩
  · rintro ⟨tag, blanks, rfl, htag, hblank⟩
    exact ⟨tag, _, rfl, (reads_anyCase _).mpr ((forall₂_foldsTo_iff h).mpr htag), blanks, _, rfl, hblank,
      '>', rfl, rfl⟩

theorem reads_bodyClosing : (closingTag "body").Reads last w rest ↔ IsClosingTag bodyClosing w :=
  reads_closingTag (by decide)

theorem reads_pageClosing : (closingTag "html").Reads last w rest ↔ IsClosingTag pageClosing w :=
  reads_closingTag (by decide)

theorem prefers_bodyClosing (h : IsClosingTag bodyClosing w) :
    (closingTag "body").Prefers last w rest [] := by
  obtain ⟨name, blanks, rfl, hname, hblank⟩ := h
  exact .andThen (.anyCase ((forall₂_foldsTo_iff (by decide)).mpr hname)) <|
    .andThen (.many hblank (stops_cons.mpr isBlank_bracket)) (.char rfl)

/-! ## Opening tags -/

theorem bracket_not_mem_name (h : w.map Char.toLower = bodyOpening) : '>' ∉ w := by
  intro hm
  have := List.mem_map_of_mem (f := Char.toLower) hm
  rw [h] at this
  exact absurd this (by decide)

theorem isWord_name (h : w.map Char.toLower = bodyOpening) (last : Option Char) :
    (w.getLast?.or last).any isWord = true := by
  rcases List.eq_nil_or_concat w with rfl | ⟨t, c, rfl⟩
  · cases h
  · have hc : c.toLower = 'y' := by
      have := congrArg List.getLast? h
      simpa [bodyOpening] using this
    rw [List.concat_eq_append, List.getLast?_append, List.getLast?_singleton]
    exact isWord_of_isLetter (isLetter_of_toLower (hc ▸ rfl))

theorem behindBracket_append (h : IsBodyTag w) : behindBracket (w ++ rest) = rest := by
  obtain ⟨name, inside, rfl, hname, hinside, -⟩ := h
  have hn : ∀ c ∈ name ++ inside, (c != '>') = true := by
    intro c hc
    rw [bne_iff_ne]
    rintro rfl
    exact (List.mem_append.mp hc).elim (bracket_not_mem_name hname) hinside
  rw [behindBracket, ← List.append_assoc, List.append_assoc, List.dropWhile_append_of_pos hn]
  rfl

theorem opensBody_iff : opensBody s = true ↔ ∃ w rest, s = w ++ rest ∧ IsBodyTag w := by
  rw [opensBody, Bool.and_eq_true, Bool.and_eq_true, Bool.not_eq_true']
  constructor
  · rintro ⟨⟨hbegins, hword⟩, hbracket⟩
    obtain ⟨name, t, rfl, hname⟩ := beginsAnyCase_iff.mp hbegins
    have hlen : bodyOpening.length = name.length := by rw [← hname, List.length_map]
    rw [hlen, List.drop_left] at hword
    rw [List.contains_iff_mem, List.mem_append] at hbracket
    have ht := hbracket.resolve_left (bracket_not_mem_name hname)
    obtain ⟨inside, rest, rfl, hinside⟩ := List.eq_append_cons_of_mem ht
    refine ⟨name ++ (inside ++ ['>']), rest, by simp, name, inside, rfl, hname, hinside, ?_⟩
    intro c hc
    have hhead : (inside ++ '>' :: rest).head? = some c := by
      rw [← hc]
      cases inside <;> rfl
    simpa [hhead] using hword
  · rintro ⟨_, rest, rfl, name, inside, rfl, hname, -, hstop⟩
    have hlen : bodyOpening.length = name.length := by rw [← hname, List.length_map]
    refine ⟨⟨beginsAnyCase_iff.mpr ⟨name, _, List.append_assoc .., hname⟩, ?_⟩, by simp⟩
    rw [hlen, List.append_assoc, List.drop_left]
    cases inside with
    | nil => exact hstop '>' rfl
    | cons c inside => exact hstop c rfl

/-- Behind the first of two brackets stands what is behind the second. -/
theorem exists_behind_bracket {x y s t : List Char} (hx : '>' ∉ x)
    (h : x ++ '>' :: s = y ++ '>' :: t) : ∃ z, s = z ++ t := by
  rcases List.append_eq_append_iff.mp h with ⟨z, -, hz⟩ | ⟨z, rfl, hz⟩
  · cases z with
    | nil => exact ⟨[], (List.cons.inj hz).2⟩
    | cons c z =>
      refine ⟨z ++ ['>'], ?_⟩
      rw [(List.cons.inj hz).2, List.append_assoc]
      rfl
  · cases z with
    | nil => exact ⟨[], (List.cons.inj hz).2.symm⟩
    | cons c z =>
      obtain rfl := (List.cons.inj hz).1
      exact absurd (List.mem_append_right y List.mem_cons_self) hx

/-- What stands behind a tag that opens later stands behind the first one too. -/
theorem IsBodyTag.exists_behind {x : List Char} (h : IsBodyTag w) (hv : IsBodyTag v)
    (he : w ++ rest = x ++ (v ++ s)) : ∃ z, rest = z ++ s := by
  obtain ⟨name, inside, rfl, hname, hinside, -⟩ := h
  obtain ⟨name', inside', rfl, -⟩ := hv
  have hbefore : '>' ∉ name ++ inside := fun hm =>
    (List.mem_append.mp hm).elim (bracket_not_mem_name hname) hinside
  refine exists_behind_bracket (y := x ++ (name' ++ inside')) hbefore ?_
  simpa using he

/-- The tag is read up to its bracket, and the rest of the pattern from there. -/
theorem prefers_bodyTag_part {r : Pattern} {name inside : List Char} {caps : List Capture}
    (hname : name.map Char.toLower = bodyOpening) (hinside : '>' ∉ inside)
    (hstop : Stops isWord (inside ++ ['>']))
    (hr : ∀ last, r.Prefers last ('>' :: v) rest caps) :
    (all [anyCase "<body", wordEdge, insideTag, r]).Prefers last (name ++ (inside ++ '>' :: v)) rest
      caps := by
  have hedge : wordEdge.Prefers (name.getLast?.or last) [] (inside ++ '>' :: v ++ rest) [] := by
    refine prefers_wordEdge (isWord_name hname last) fun c hc => hstop c ?_
    rw [← hc]
    cases inside <;> rfl
  have hmany : ∀ c ∈ inside, (c != '>') = true := by
    intro c hc
    rw [bne_iff_ne]
    rintro rfl
    exact hinside hc
  exact .andThen (.anyCase ((forall₂_foldsTo_iff (by decide)).mpr hname)) <|
    .andThen (u := []) hedge <| .andThen (.many hmany (stops_cons.mpr rfl)) (hr _)

theorem prefers_bodyTag (h : IsBodyTag w) : bodyTag.pattern.Prefers last w rest [] := by
  obtain ⟨name, inside, rfl, hname, hinside, hstop⟩ := h
  exact prefers_bodyTag_part hname hinside hstop fun _ => .char rfl

/-- The content of a closed element is the text up to the first closing tag. -/
theorem prefers_bodyElement {content : List Char} (hw : IsBodyTag w) (hv : IsClosingTag bodyClosing v)
    (hn : ∀ a b, content = a ++ b → b ≠ [] → ∀ x y, b ++ (v ++ rest) = x ++ y →
      ¬ IsClosingTag bodyClosing x) :
    bodyElement.pattern.Prefers last (w ++ (content ++ v)) rest
      [⟨1, content ++ (v ++ rest), content.length⟩] := by
  obtain ⟨name, inside, rfl, hname, hinside, hstop⟩ := hw
  have hcontent : (seq (group 1 (few fun _ => true)) (closingTag "body")).Prefers (some '>')
      (content ++ v) rest ([] ++ [⟨1, content ++ (v ++ rest), content.length⟩]) :=
    .fewest (fun _ _ => rfl) (fun a b hab hb x y hxy hread =>
      hn a b hab hb x y hxy (reads_bodyClosing.mp hread)) (prefers_bodyClosing hv)
  have htext : name ++ (inside ++ ['>']) ++ (content ++ v) =
      name ++ (inside ++ '>' :: (content ++ v)) := by simp
  rw [htext]
  exact prefers_bodyTag_part hname hinside hstop fun _ => .andThen (u := ['>']) (.char rfl) hcontent

theorem exists_of_reads_bodyTag_part {r : Pattern}
    (h : (all [anyCase "<body", wordEdge, insideTag, r]).Reads last w rest) :
    ∃ name inside v last', w = name ++ (inside ++ v) ∧ name.map Char.toLower = bodyOpening ∧
      '>' ∉ inside ∧ Stops isWord (inside ++ (v ++ rest)) ∧ r.Reads last' v rest := by
  obtain ⟨name, _, rfl, hname, _, _, rfl, ⟨rfl, hedge⟩, inside, v, rfl, hinside, hr⟩ := h
  have hname := (forall₂_foldsTo_iff (by decide)).mp ((reads_anyCase _).mp hname)
  refine ⟨name, inside, v, _, rfl, hname, fun hm => ?_, fun c hc => ?_, hr⟩
  · exact absurd (hinside '>' hm) (by decide)
  · rw [isWord_name hname, List.append_assoc, hc] at hedge
    simpa using hedge

theorem isBodyTag_of_reads (h : bodyTag.pattern.Reads last w rest) : IsBodyTag w := by
  obtain ⟨name, inside, _, _, rfl, hname, hinside, hstop, c, hc, rfl⟩ :=
    exists_of_reads_bodyTag_part h
  obtain rfl := eq_of_beq hc
  exact ⟨name, inside, rfl, hname, hinside, stops_bracket.mp hstop⟩

/-- A closed element is an opening tag, its content and a closing tag. -/
theorem exists_of_reads_bodyElement (h : bodyElement.pattern.Reads last w rest) :
    ∃ tag content close, w = tag ++ (content ++ close) ∧ IsBodyTag tag ∧
      IsClosingTag bodyClosing close := by
  obtain ⟨name, inside, _, _, rfl, hname, hinside, hstop, _, _, rfl, ⟨c, hc, rfl⟩, content, close, rfl,
    -, hclose⟩ := exists_of_reads_bodyTag_part h
  obtain rfl := eq_of_beq hc
  exact ⟨name ++ (inside ++ ['>']), content, close, by simp,
    ⟨name, inside, rfl, hname, hinside, stops_bracket.mp hstop⟩, reads_bodyClosing.mp hclose⟩

/-! ## The end of a page -/

/-- Blanks, a closing `html` tag or none, and blanks again. -/
def IsPageEnd (w : List Char) : Prop :=
  ∃ before tag after, w = before ++ (tag ++ after) ∧ (∀ c ∈ before, isBlank c = true) ∧
    (tag = [] ∨ IsClosingTag pageClosing tag) ∧ ∀ c ∈ after, isBlank c = true

/-- No closing `body` tag begins anywhere in the text. -/
def IsUnclosed (s : List Char) : Prop := ∀ a w b, s = a ++ (w ++ b) → ¬ IsClosingTag bodyClosing w

theorem isPageEnd_of_reads (h : pageTail.pattern.Reads last w rest) (hw : IsUnclosed w) :
    rest = [] ∧ IsPageEnd w := by
  obtain ⟨b₁, _, rfl, hb₁, m₁, _, rfl, hm₁, b₂, _, rfl, hb₂, m₂, _, rfl, hm₂, b₃, _, rfl, hb₃, rfl,
    rfl⟩ := h
  have hm₁ : m₁ = [] := by
    rcases hm₁ with hm₁ | hm₁
    · exact absurd (reads_bodyClosing.mp hm₁) (hw b₁ m₁ _ rfl)
    · exact hm₁
  subst hm₁
  refine ⟨rfl, b₁ ++ b₂, m₂, b₃, by simp, ?_, ?_, hb₃⟩
  · exact fun c hc => (List.mem_append.mp hc).elim (hb₁ c) (hb₂ c)
  · exact hm₂.symm.imp_right reads_pageClosing.mp

theorem reads_of_isPageEnd (h : IsPageEnd w) : pageTail.pattern.Reads last w [] := by
  obtain ⟨before, tag, after, rfl, hbefore, htag, hafter⟩ := h
  have hnone : ∀ c ∈ ([] : List Char), isBlank c = true := fun _ hc => absurd hc List.not_mem_nil
  refine ⟨before, _, rfl, hbefore, [], _, rfl, .inr rfl, [], _, rfl, hnone, tag, _, rfl, ?_, after,
    [], (List.append_nil after).symm, hafter, rfl, rfl⟩
  exact htag.symm.imp_left reads_pageClosing.mpr

theorem rest_eq_nil_of_reads (h : pageTail.pattern.Reads last w rest) : rest = [] := by
  obtain ⟨_, _, rfl, -, _, _, rfl, -, _, _, rfl, -, _, _, rfl, -, _, _, rfl, -, -, hrest⟩ := h
  exact hrest

theorem not_forall_isBlank (h : dropBlankTail s = u ++ v) (hv : v ≠ []) :
    ¬ ∀ c ∈ v, isBlank c = true := by
  intro hblank
  obtain ⟨t, c, rfl⟩ := (List.eq_nil_or_concat v).resolve_left hv
  have hlast : (dropBlankTail s).getLast? = some c := by simp [h]
  have hc := hblank c (by simp)
  exact Bool.false_ne_true ((isBlank_getLast?_dropBlankTail hlast).symm.trans hc)

theorem IsPageEnd.dropBlankTail_eq (h : IsPageEnd v) (hs : s = u ++ v)
    (hv : ¬ ∀ c ∈ v, isBlank c = true) :
    ∃ before tag after, v = before ++ (tag ++ after) ∧ (∀ c ∈ before, isBlank c = true) ∧
      IsClosingTag pageClosing tag ∧ dropBlankTail s = u ++ before ++ tag := by
  obtain ⟨before, tag, after, rfl, hbefore, rfl | htag, hafter⟩ := h
  · refine absurd (fun c hc => ?_) hv
    exact (List.mem_append.mp hc).elim (hbefore c) (hafter c)
  · refine ⟨before, tag, after, rfl, hbefore, htag, ?_⟩
    have hsolid : ∀ c, (u ++ before ++ tag).getLast? = some c → isBlank c = false := by
      intro c hc
      rw [List.getLast?_append, htag.getLast?, Option.some_or] at hc
      exact Option.some.inj hc ▸ isBlank_bracket
    have htext : s = u ++ before ++ tag ++ after := by simp [hs]
    rw [htext, dropBlankTail_append_blanks _ hafter, dropBlankTail_eq_self hsolid]

/-- The text ends, from the first place on where it can, with the end of a page. -/
theorem exists_pageEnd (s : List Char) : ∃ v, s = withoutPageEnd s ++ v ∧ IsPageEnd v ∧
    ∀ a b, withoutPageEnd s = a ++ b → b ≠ [] → ¬ IsPageEnd (b ++ v) := by
  obtain ⟨tail, hs, htail⟩ := dropBlankTail_append s
  have hhere {tag : List Char} (h : IsClosingTag pageClosing tag) :
      behindClosing? pageClosing tag = some [] :=
    behindClosing?_eq_some_iff.mpr ⟨tag, (List.append_nil tag).symm, h⟩
  unfold withoutPageEnd
  cases hcut : cutBefore? (fun t => behindClosing? pageClosing t == some []) (dropBlankTail s) with
  | none =>
    refine ⟨tail, hs, ⟨[], [], tail, rfl, by simp, .inl rfl, htail⟩, fun a b hab hb hend => ?_⟩
    have hblank : ¬ ∀ c ∈ b ++ tail, isBlank c = true := fun h =>
      not_forall_isBlank hab hb fun c hc => h c (List.mem_append_left tail hc)
    obtain ⟨before, tag, -, -, -, htag, hdrop⟩ := hend.dropBlankTail_eq
      (by rw [← List.append_assoc, ← hab, ← hs]) hblank
    have hn := cutBefore?_eq_none hcut _ tag hdrop htag.ne_nil
    rw [hhere htag] at hn
    exact absurd hn (by decide)
  | some cut =>
    obtain ⟨x, y⟩ := cut
    obtain ⟨hxy, hy, hfirst⟩ := cutBefore?_eq_some hcut
    obtain ⟨w, hw, hclose⟩ := behindClosing?_eq_some_iff.mp (beq_iff_eq.mp hy)
    obtain rfl : y = w := hw.trans (List.append_nil w)
    obtain ⟨blanks, hx, hblanks⟩ := dropBlankTail_append x
    have hs' : s = dropBlankTail x ++ (blanks ++ (y ++ tail)) := by
      rw [← List.append_assoc, ← hx, ← List.append_assoc, ← hxy]
      exact hs
    refine ⟨_, hs', ⟨blanks, y, tail, rfl, hblanks, .inr hclose, htail⟩, fun a b hab hb hend => ?_⟩
    have hab : dropBlankTail x = a ++ b := hab
    have hsolid : ¬ ∀ c ∈ b ++ (blanks ++ (y ++ tail)), isBlank c = true := fun h => by
      have hbracket := h '>' (by simp [List.mem_of_getLast? hclose.getLast?])
      exact Bool.false_ne_true (isBlank_bracket.symm.trans hbracket)
    obtain ⟨before, tag, -, -, hbefore, htag, hdrop⟩ := hend.dropBlankTail_eq (s := s) (u := a)
      (by rw [← List.append_assoc, ← hab]; exact hs') hsolid
    -- the tag found from `b` on does not begin before the one found first
    obtain ⟨z, hz⟩ : ∃ z, a ++ before = x ++ z := by
      rcases List.append_eq_append_iff.mp (hxy.symm.trans hdrop) with ⟨z, hz, -⟩ | ⟨z, hz, rfl⟩
      · exact ⟨z, hz⟩
      · rcases eq_or_ne z [] with rfl | hne
        · exact ⟨[], by simp [hz]⟩
        · have hn := hfirst _ z hz hne
          rw [hhere htag] at hn
          exact absurd hn (by decide)
    have hmem : before = b ++ (blanks ++ z) := by
      rw [← List.append_cancel_left_eq a, hz, ← List.append_assoc, ← hab, ← List.append_assoc, ← hx]
    exact not_forall_isBlank hab hb fun c hc => hbefore c (hmem ▸ List.mem_append_left _ hc)

theorem IsUnclosed.of_append (h : IsUnclosed (u ++ v)) : IsUnclosed v := by
  intro a w b hs
  exact h (u ++ a) w b (by rw [hs, List.append_assoc])

/-- The rule for the end of a page leaves the text before this end. -/
theorem apply_pageTail (h : IsUnclosed s) :
    (pageTail.apply (String.ofList s)).toList = withoutPageEnd s := by
  obtain ⟨v, hs, hend, hfirst⟩ := exists_pageEnd s
  have hread : pageTail.pattern.Reads (withoutPageEnd s).getLast? v [] := reads_of_isPageEnd hend
  have hpass : pageTail.pattern.Passes none (withoutPageEnd s) v := by
    intro a b hab hb
    refine readAt_eq_none.mpr fun w rest hw hr => ?_
    have hunclosed : IsUnclosed (w ++ rest) := by
      refine .of_append (u := a) ?_
      rwa [← hw, ← List.append_assoc, ← hab, ← hs]
    obtain ⟨rfl, hpage⟩ := isPageEnd_of_reads hr fun x y z hxyz =>
      hunclosed x y (z ++ rest) (by rw [hxyz]; simp)
    rw [List.append_nil] at hw
    exact hfirst a b hab hb (hw ▸ hpage)
  have hremove := remove_end rest_eq_nil_of_reads hpass hread
  rwa [← hs] at hremove

/-! ## The body -/

theorem isUnclosed_of_cutBefore?
    (h : cutBefore? (fun t => (behindClosing? bodyClosing t).isSome) s = none) : IsUnclosed s := by
  intro a w b hs hw
  have hn := cutBefore?_eq_none h a (w ++ b) hs (by simp [hw.ne_nil])
  rw [behindClosing?_eq_some_iff.mpr ⟨w, rfl, hw⟩] at hn
  cases hn

/-- The pattern reads an opening `body` tag first. -/
def BeginsWithBodyTag (p : Pattern) : Prop :=
  ∀ {last w rest}, p.Reads last w rest → ∃ tag r, w = tag ++ r ∧ IsBodyTag tag

theorem beginsWithBodyTag_bodyElement : BeginsWithBodyTag bodyElement.pattern := by
  intro last w rest h
  obtain ⟨tag, content, close, hw, htag, -⟩ := exists_of_reads_bodyElement h
  exact ⟨tag, content ++ close, hw, htag⟩

theorem beginsWithBodyTag_bodyTag : BeginsWithBodyTag bodyTag.pattern := by
  intro last w rest h
  exact ⟨w, [], (List.append_nil w).symm, isBodyTag_of_reads h⟩

theorem BeginsWithBodyTag.opens {p : Pattern} (hp : BeginsWithBodyTag p)
    (h : p.Reads last w rest) : opensBody (w ++ rest) = true := by
  obtain ⟨tag, r, rfl, htag⟩ := hp h
  exact opensBody_iff.mpr ⟨tag, r ++ rest, List.append_assoc .., htag⟩

/-- Before the first opening tag nothing is read. -/
theorem BeginsWithBodyTag.passes {p : Pattern} (hp : BeginsWithBodyTag p)
    (h : ∀ a b, u = a ++ b → b ≠ [] → opensBody (b ++ v) = false) : p.Passes none u v := by
  intro a b hab hb
  refine readAt_eq_none.mpr fun w rest hw hr => ?_
  exact Bool.false_ne_true ((h a b hab hb).symm.trans (hw ▸ hp.opens hr))

variable {html : String} {before tag : List Char}

/-- A text without an opening tag is kept as it is. -/
theorem bodyOf_of_not_opensBody (h : cutBefore? opensBody html.toList = none) :
    bodyOf html = html := by
  have hnone {p : Pattern} (ht : p.takesSome = true) (hp : BeginsWithBodyTag p) :
      p.first? html = none := by
    refine (first?_eq_none ht).mpr fun a w b hs hr => ?_
    have hn := cutBefore?_eq_none h a _ hs (by simp [hr.ne_nil ht])
    exact Bool.false_ne_true (hn.symm.trans (hp.opens hr))
  rw [bodyOf, hnone rfl beginsWithBodyTag_bodyElement, hnone rfl beginsWithBodyTag_bodyTag]

/-- The content of a closed element counts up to its first closing tag. -/
theorem bodyOf_closed {content close : List Char}
    (hs : html.toList = before ++ (tag ++ (content ++ (close ++ rest))))
    (hfirst : ∀ a b, before = a ++ b → b ≠ [] →
      opensBody (b ++ (tag ++ (content ++ (close ++ rest)))) = false)
    (htag : IsBodyTag tag) (hclose : IsClosingTag bodyClosing close)
    (hnot : ∀ a b, content = a ++ b → b ≠ [] →
      (behindClosing? bodyClosing (b ++ (close ++ rest))).isSome = false) :
    bodyOf html = String.ofList content := by
  have hprefers : bodyElement.pattern.Prefers before.getLast? (tag ++ (content ++ close)) rest _ :=
    prefers_bodyElement htag hclose fun a b hab hb x y hxy hx => by
      have hn := hnot a b hab hb
      rw [behindClosing?_eq_some_iff.mpr ⟨x, hxy, hx⟩] at hn
      cases hn
  have hread := readAt_of_prefers hprefers
  have hfound := first?_of_readAt (p := bodyElement.pattern) rfl hs
    (beginsWithBodyTag_bodyElement.passes hfirst) (by simpa using hread)
  rw [bodyOf, hfound]
  simp [Hit.groupText, Hit.group?]

/-- All that stands behind the tag of an element that is never closed counts, without the end of the
page. -/
theorem bodyOf_unclosed {r : List Char} (hs : html.toList = before ++ (tag ++ r))
    (hfirst : ∀ a b, before = a ++ b → b ≠ [] → opensBody (b ++ (tag ++ r)) = false)
    (htag : IsBodyTag tag) (hr : IsUnclosed r) : bodyOf html = String.ofList (withoutPageEnd r) := by
  have helement : bodyElement.pattern.first? html = none := by
    refine (first?_eq_none rfl).mpr fun a w b hw hread => ?_
    -- the element that is read does not open before the first tag
    obtain ⟨x, rfl, hx⟩ : ∃ x, a = before ++ x ∧ tag ++ r = x ++ (w ++ b) := by
      rcases List.append_eq_append_iff.mp (hs.symm.trans hw) with ⟨x, ha, hx⟩ | ⟨z, rfl, hz⟩
      · exact ⟨x, ha, hx⟩
      · rcases eq_or_ne z [] with rfl | hne
        · exact ⟨[], by simp, hz.symm⟩
        · have hopens := beginsWithBodyTag_bodyElement.opens hread
          rw [hz, hfirst a z rfl hne] at hopens
          cases hopens
    obtain ⟨tag', content, close, rfl, htag', hclose⟩ := exists_of_reads_bodyElement hread
    obtain ⟨z, hz⟩ := htag.exists_behind (s := content ++ (close ++ b)) htag' (by simpa using hx)
    exact hr (z ++ content) close b (by simp [hz]) hclose
  have hprefers : bodyTag.pattern.Prefers before.getLast? tag r [] := prefers_bodyTag htag
  have hfound := first?_of_readAt rfl hs (beginsWithBodyTag_bodyTag.passes hfirst)
    (readAt_of_prefers hprefers)
  rw [bodyOf, helement, hfound]
  exact String.toList_inj.mp (by simpa using apply_pageTail hr)

/-- What the rules find is the body as it is described. -/
theorem bodyOf_eq_plainBody (html : String) :
    bodyOf html = String.ofList (plainBody html.toList) := by
  unfold plainBody
  cases hopen : cutBefore? opensBody html.toList with
  | none =>
    rw [bodyOf_of_not_opensBody hopen]
    exact String.ofList_toList.symm
  | some cut =>
    obtain ⟨before, opened⟩ := cut
    obtain ⟨hs, hopens, hfirst⟩ := cutBefore?_eq_some hopen
    obtain ⟨tag, r, rfl, htag⟩ := opensBody_iff.mp hopens
    simp only [behindBracket_append htag]
    cases hclose : cutBefore? (fun t => (behindClosing? bodyClosing t).isSome) r with
    | none => exact bodyOf_unclosed hs hfirst htag (isUnclosed_of_cutBefore? hclose)
    | some cut =>
      obtain ⟨content, closed⟩ := cut
      obtain ⟨rfl, hcloses, hnot⟩ := cutBefore?_eq_some hclose
      obtain ⟨rest, hrest⟩ := Option.isSome_iff_exists.mp hcloses
      obtain ⟨close, rfl, hclosing⟩ := behindClosing?_eq_some_iff.mp hrest
      exact bodyOf_closed hs hfirst htag hclosing hnot

end Workbench.Markup
