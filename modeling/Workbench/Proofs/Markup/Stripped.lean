import Workbench.Proofs.Markup.ElementReading

/-!
# Fragments without references to the project's files

Both rules take a fragment element by element. An empty script with a source is read whole, with the
blanks and the line end behind it, and so is a link to a style sheet; no other text and no other element
is touched (`LeavesOut`). So a fragment loses just the scripts with local sources, and then, from what is
left, the links to local style sheets (`dropLocalReferences_render`).

The links are looked for when the scripts are gone. A link that stood before such a script therefore
takes a second line end with it, the one that stood behind the script's own
(`not_forall_dropLocalReferences`).
-/

namespace Workbench.Markup

open Pattern Script Text

variable {p : Pattern} {f : Hit → List Char} {gone : Element → Bool} {last : Option Char}
  {s w rest : List Char} {c : Char}

/-! ## From elements to fragments -/

/-- Nothing is read in text between elements. Each element is passed over, or read whole with the blanks
and the line end behind it, and it is left out then or kept. -/
structure LeavesOut (p : Pattern) (f : Hit → List Char) (gone : Element → Bool) : Prop where
  sectioned : p.Sectioned
  prose : ∀ (t : Prose) (a b s : List Char), t.chars = a ++ b → b ≠ [] →
    p.readAt none (b ++ s) = none
  element : ∀ e : Element,
    (gone e = false ∧ ∀ a b s, e.chars = a ++ b → b ≠ [] → p.readAt none (b ++ s) = none) ∨
    ∀ s, ∃ h, p.readAt none (e.chars ++ s) = some h ∧ h.after = afterLineEnd s ∧
      f h = if gone e then [] else h.text

namespace Fragment

variable {items : List (Element × Prose)}

/-- No blank stands before the next element. -/
theorem stops_withoutItems (items : List (Element × Prose)) :
    Stops isBlank (withoutItems (fun _ => false) items) := by
  cases items with
  | nil => exact fun _ hc => absurd hc (Option.not_mem_none _)
  | cons x items =>
    obtain ⟨e, t⟩ := x
    obtain ⟨v, hv⟩ := e.exists_chars_cons
    rw [withoutItems_cons, if_neg Bool.false_ne_true, hv]
    exact stops_cons.mpr (by decide)

end Fragment

open Fragment in
theorem LeavesOut.toList_replace (h : LeavesOut p f gone) (items : List (Element × Prose)) :
    ∀ lead : Prose, (p.replace f
      (String.ofList (lead.chars ++ withoutItems (fun _ => false) items))).toList =
        lead.chars ++ withoutItems gone items := by
  -- a text in which nothing is read stays, and what follows it is dealt with by itself
  have hskip {w : List Char} (hw : ∀ a b s, w = a ++ b → b ≠ [] → p.readAt none (b ++ s) = none)
      (s : List Char) : (p.replace f (String.ofList (w ++ s))).toList =
        w ++ (p.replace f (String.ofList s)).toList := by
    rw [String.ofList_append, replace_gaps_append h.sectioned f (fun a b hab hb => hw a b _ hab hb),
      String.toList_append, String.toList_ofList]
  induction items with
  | nil =>
    intro lead
    have hempty : p.replace f (String.ofList []) = "" :=
      replace_of_not_occursIn (occursIn_empty h.sectioned.takes) f
    rw [withoutItems, List.flatMap_nil, hskip (h.prose lead), hempty]
    rfl
  | cons x items ih =>
    intro lead
    obtain ⟨e, t⟩ := x
    rw [hskip (h.prose lead), withoutItems_cons, withoutItems_cons, if_neg Bool.false_ne_true,
      List.append_assoc]
    refine congrArg (lead.chars ++ ·) ?_
    rcases h.element e with ⟨hgone, hpass⟩ | hread
    · rw [hskip hpass, ih t, hgone, if_neg Bool.false_ne_true, List.append_assoc]
    · obtain ⟨hit, hr, hafter, hf⟩ := hread (t.chars ++ withoutItems (fun _ => false) items)
      rw [afterLineEnd_append (.inr (stops_withoutItems items))] at hafter
      have hsplit := (reads_of_readAt hr).1
      rw [hafter, ← List.append_assoc, ← List.append_assoc] at hsplit
      have hkept := List.append_cancel_right hsplit
      have hrest := ih (t.ofSuffix (afterLineEnd_suffix t.chars))
      rw [← String.toList_ofList (l := e.chars ++ _)] at hr
      rw [replace_of_readAt h.sectioned f hr, hafter, hf]
      refine (congrArg _ hrest).trans ?_
      cases gone e with
      | true => rfl
      | false => simpa [Prose.ofSuffix] using congrArg (· ++ withoutItems gone items) hkept.symm

theorem LeavesOut.replace_render (h : LeavesOut p f gone) (F : Fragment) :
    p.replace f F.render = F.without gone := by
  rw [← String.toList_inj, Fragment.without, String.toList_ofList]
  exact h.toList_replace F.items F.lead

/-! ## The two rules -/

theorem styleReference_sectioned : styleReference.pattern.Sectioned := ⟨rfl, rfl, rfl⟩

/-- What becomes of a link to a style sheet. -/
def keptLink (h : Hit) : List Char := if (hrefOf? h.text).any isExternal then h.text else []

theorem leavesOut_scriptReference :
    LeavesOut scriptReference.pattern keptElement Element.isOwnScript where
  sectioned := scriptReference_sectioned
  prose t _ _ s hab hb :=
    (t.nowhere script_mem_ruledTags s).readAt_eq_none (beginsWhere_anyCase _ _) hab hb
  element
    | .inline x => .inl ⟨rfl, fun _ _ s hab hb => x.passes none hab hb s⟩
    | .script x => .inr fun s => by
      obtain ⟨h, hr, hgroup, hafter⟩ := x.exists_readAt none s
      refine ⟨h, hr, hafter, ?_⟩
      rw [keptElement, hgroup]
      rfl
    | .link x => .inl ⟨rfl, fun _ _ s hab hb =>
      (x.nowhere_scriptTag s).readAt_eq_none (beginsWhere_anyCase _ _) hab hb⟩

theorem leavesOut_styleReference :
    LeavesOut styleReference.pattern keptLink Element.isOwnLink where
  sectioned := styleReference_sectioned
  prose t _ _ s hab hb :=
    (t.nowhere link_mem_ruledTags s).readAt_eq_none (beginsWhere_anyCase _ _) hab hb
  element
    | .inline x => .inl ⟨rfl, fun _ _ s hab hb =>
      (x.nowhere_linkTag s).readAt_eq_none (beginsWhere_anyCase _ _) hab hb⟩
    | .script x => .inl ⟨rfl, fun _ _ s hab hb =>
      (x.nowhere_linkTag s).readAt_eq_none (beginsWhere_anyCase _ _) hab hb⟩
    | .link x => .inr fun s => by
      obtain ⟨h, w, hr, htext, hw, hafter⟩ := x.exists_readAt none s
      refine ⟨h, hr, hafter, ?_⟩
      rw [keptLink, htext, x.hrefOf?_append hw, Element.isOwnLink]
      cases x.attributes.href?.any isExternal <;> rfl

/-! ## Fragments -/

theorem dropLocalScripts_render (F : Fragment) :
    dropLocalScripts F.render = F.without Element.isOwnScript :=
  leavesOut_scriptReference.replace_render F

theorem dropLocalStylesheets_render (F : Fragment) :
    dropLocalStylesheets F.render = F.without Element.isOwnLink :=
  leavesOut_styleReference.replace_render F

/-- A fragment loses the scripts with local sources, each with the blanks and the one line end behind it,
and then what is left loses the links to local style sheets in the same way. That is losing both at
once, unless such a script stands right behind such a link on one line. -/
theorem dropLocalReferences_render (F : Fragment) :
    dropLocalReferences F.render = (F.drop Element.isOwnScript).without Element.isOwnLink ∧
      (Fragment.Separate Element.isOwnScript Element.isOwnLink F.items →
        dropLocalReferences F.render = F.without fun e => e.isOwnScript || e.isOwnLink) := by
  have htwice : dropLocalReferences F.render =
      (F.drop Element.isOwnScript).without Element.isOwnLink := by
    rw [dropLocalReferences, dropLocalScripts_render, ← Fragment.render_drop,
      dropLocalStylesheets_render]
  exact ⟨htwice, fun hseparate => htwice.trans (Fragment.without_drop hseparate)⟩

/-- A link to a style sheet without a reference and a script of the project, with two line ends behind
it. -/
def linkAndScript (between : Prose) : Fragment :=
  let noOthers : Others := ⟨[], rfl, by decide⟩
  let noBlanks : Blanks := .empty Text.isBlank
  let link : StyleLink := ⟨.plain "<link" rfl, .relOnly noOthers
    ⟨⟨' ', rfl, .plain "rel" rfl, noBlanks, noBlanks⟩, none, rfl, .plain "stylesheet" rfl⟩ noOthers, rfl⟩
  let source : Reference :=
    ⟨'"', rfl, ⟨"a.js".toList, List.all_eq_true.mp rfl⟩, List.cons_ne_nil 'a' ['.', 'j', 's']⟩
  let script : SourcedScript := ⟨.plain "<script" rfl, noOthers, rfl,
    ⟨' ', rfl, .plain "src" rfl, noBlanks, noBlanks⟩, source, noOthers, noBlanks,
    ⟨.plain "</script" rfl, noBlanks⟩⟩
  ⟨.empty, [(.link link, between), (.script script, ⟨['\n', '\n'], rfl, by decide⟩)]⟩

theorem dropLocalReferences_lines :
    (linkAndScript ⟨['\n'], rfl, by decide⟩).render =
      "<link rel=stylesheet>\n<script src=\"a.js\"></script>\n\n" ∧
    Fragment.Separate Element.isOwnScript Element.isOwnLink
      (linkAndScript ⟨['\n'], rfl, by decide⟩).items ∧
    dropLocalReferences (linkAndScript ⟨['\n'], rfl, by decide⟩).render = "\n" :=
  have hseparate : Fragment.Separate Element.isOwnScript Element.isOwnLink
      (linkAndScript ⟨['\n'], rfl, by decide⟩).items :=
    .cons_cons (fun _ _ => rfl) (.singleton _)
  ⟨by decide, hseparate, ((dropLocalReferences_render _).2 hseparate).trans (by decide)⟩

/-- A link directly before a script takes the second line end behind the script with it. -/
theorem not_forall_dropLocalReferences : ¬ ∀ F : Fragment,
    dropLocalReferences F.render = F.without fun e => e.isOwnScript || e.isOwnLink := by
  intro h
  have hkept : dropLocalReferences "<link rel=stylesheet><script src=\"a.js\"></script>\n\n" = "\n" :=
    (congrArg dropLocalReferences (by decide)).trans ((h (linkAndScript .empty)).trans (by decide))
  exact absurd hkept (by decide +kernel)

end Workbench.Markup
