import Workbench.Markup.Reference
import Workbench.Proofs.Markup.ScriptEnd
import Workbench.Proofs.Pattern.Parts

/-!
# Empty `script` elements with a source

An empty `script` element is read as it is written, with the blanks and the line end behind it
(`readAt_scriptElement`), if its source holds no quote. So where such an element stands free, that is,
it is not read as a part of an element that begins before it, and its source is a local script, a
fragment loses just this element (`dropLocalScripts_append`).
-/

namespace Workbench.Markup

open Pattern Script

variable {last : Option Char} {s w rest : List Char} {before after source : String}

/-- An empty `script` element with a source. -/
def scriptElement (source : String) : String := "<script src=\"" ++ source ++ "\"></script>"

/-- The text behind one line end. -/
def afterLineBreak : List Char → List Char
  | '\r' :: '\n' :: rest => rest
  | '\n' :: rest => rest
  | rest => rest

/-- The text behind the blanks and the one line end that may follow an element. -/
def afterLineEnd (s : List Char) : List Char := afterLineBreak (s.dropWhile Text.isIndent)

theorem exists_prefers_lineBreak (s : List Char) :
    ∃ w, s = w ++ afterLineBreak s ∧
      ∀ last, (optional lineBreak).Prefers last w (afterLineBreak s) [] := by
  unfold afterLineBreak
  split
  · exact ⟨['\r', '\n'], rfl, fun _ => .left (.andThen (u := ['\r']) (.left (.char rfl)) (.char rfl))⟩
  · exact ⟨['\n'], rfl, fun _ =>
      .left (.andThen (u := []) (prefers_skip_this (stops_cons.mpr rfl)) (.char rfl))⟩
  · rename_i hcr hlf
    refine ⟨[], rfl, fun _ => prefers_skip ?_⟩
    rintro u v rfl ⟨a, b, rfl, ha, c, hc, rfl⟩
    obtain rfl := eq_of_beq hc
    rcases ha with ⟨d, hd, rfl⟩ | rfl
    · obtain rfl := eq_of_beq hd
      exact hcr v rfl
    · exact hlf v rfl

theorem exists_prefers_blankTail (s : List Char) :
    ∃ w, s = w ++ afterLineEnd s ∧ ∀ last, blankTail.Prefers last w (afterLineEnd s) [] := by
  obtain ⟨w, hs, hw⟩ := exists_prefers_lineBreak (s.dropWhile Text.isIndent)
  have hindent : ∀ c ∈ s.takeWhile Text.isIndent, Text.isIndent c = true :=
    List.all_eq_true.mp List.all_takeWhile
  have hstop : Stops Text.isIndent (w ++ afterLineEnd s) := hs ▸ stops_dropWhile Text.isIndent s
  refine ⟨s.takeWhile Text.isIndent ++ w, ?_, fun _ => .andThen (.many hindent hstop) (hw _)⟩
  rw [afterLineEnd, List.append_assoc, ← hs, List.takeWhile_append_dropWhile]

/-! ## Reading an element -/

theorem prefers_equals : equals.Prefers last ['='] ('"' :: w) [] :=
  .andThen (u := []) (.many_nil (stops_cons.mpr rfl)) <|
    .andThen (u := ['=']) (.char rfl) (.many_nil (stops_cons.mpr rfl))

/-- A reference is read from its opening quote up to the next quote, of either kind. -/
theorem prefers_quotedReference {r : List Char} {o c : Char} (ho : isQuote o = true)
    (hr : ∀ d ∈ r, isQuote d = false) (hne : r ≠ []) (hc : isQuote c = true) :
    (quotedReference 1).Prefers last (o :: (r ++ [c])) rest [⟨1, r ++ c :: rest, r.length⟩] := by
  obtain ⟨d, v, rfl⟩ := List.exists_cons_of_ne_nil hne
  rw [List.forall_mem_cons] at hr
  have hread : (group 1 (some1 fun c => !isQuote c)).Prefers (some o) (d :: v) ([c] ++ rest)
      [⟨1, d :: v ++ ([c] ++ rest), (d :: v).length⟩] :=
    .group 1 (.some1 (by simp [hr.1]) (fun d hd => by simp [hr.2 d hd]) (stops_cons.mpr (by simp [hc])))
  exact .andThen (u := [o]) (.char ho) (hread.seq (.char hc))

/-- The text of an element after its source. -/
def elementTail : List Char := ['>', '<', '/', 's', 'c', 'r', 'i', 'p', 't', '>']

theorem toList_scriptElement (source : String) :
    (scriptElement source).toList =
      ['<', 's', 'c', 'r', 'i', 'p', 't', ' ', 's', 'r', 'c', '='] ++
        ('"' :: (source.toList ++ ['"']) ++ elementTail) := by
  simp [scriptElement, elementTail]

theorem prefers_elementTail (hw : ∀ last, blankTail.Prefers last w rest []) :
    (all [insideTag, this '>', gap, closingTag "script", blankTail]).Prefers last
      (elementTail ++ w) rest [] := by
  have hclose (last : Option Char) : (closingTag "script").Prefers last
      ['<', '/', 's', 'c', 'r', 'i', 'p', 't', '>'] (w ++ rest) [] :=
    .andThen (u := ['<', '/', 's', 'c', 'r', 'i', 'p', 't']) (.anyCase (by decide)) <|
    .andThen (u := []) (.many_nil (stops_cons.mpr rfl)) (.char rfl)
  exact .andThen (u := []) (.many_nil (stops_cons.mpr rfl)) <| .andThen (u := ['>']) (.char rfl) <|
    .andThen (u := []) (.many_nil (stops_cons.mpr rfl)) <| .andThen (hclose _) (hw _)

theorem prefers_scriptElement (hq : ∀ c ∈ source.toList, isQuote c = false) (hne : source ≠ "")
    (hw : ∀ last, blankTail.Prefers last w rest []) :
    scriptReference.pattern.Prefers last ((scriptElement source).toList ++ w) rest
      [⟨1, source.toList ++ '"' :: (elementTail ++ w ++ rest), source.toList.length⟩] := by
  have hsource : source.toList ≠ [] := fun h => hne (String.toList_inj.mp h)
  have hvalue (last : Option Char) : (all [quotedReference 1, insideTag, this '>', gap,
      closingTag "script", blankTail]).Prefers last
        ('"' :: (source.toList ++ ['"']) ++ (elementTail ++ w)) rest
      [⟨1, source.toList ++ '"' :: (elementTail ++ w ++ rest), source.toList.length⟩] :=
    (prefers_quotedReference rfl hq hsource rfl).seq (prefers_elementTail hw)
  have hedge {v : List Char} : wordEdge.Prefers (some 't') [] (' ' :: v) [] :=
    prefers_wordEdge (by decide) (stops_cons.mpr (by decide))
  have hread : scriptReference.pattern.Prefers last (['<', 's', 'c', 'r', 'i', 'p', 't'] ++ ([] ++
      ([] ++ ([' '] ++ (['s', 'r', 'c'] ++ (['='] ++
        ('"' :: (source.toList ++ ['"']) ++ (elementTail ++ w)))))))) rest _ :=
    .andThen (.anyCase (by decide)) <| .andThen hedge <| .andThen .few_nil <| .andThen (.char rfl) <|
    .andThen (.anyCase (by decide)) <| .andThen prefers_equals (hvalue _)
  simpa [toList_scriptElement] using hread

/-- An element is read whole, with the blanks and the line end behind it. -/
theorem readAt_scriptElement (hq : ∀ c ∈ source.toList, isQuote c = false) (hne : source ≠ "")
    (last : Option Char) (after : List Char) :
    ∃ h, scriptReference.pattern.readAt last ((scriptElement source).toList ++ after) = some h ∧
      h.groupText 1 = source.toList ∧ h.after = afterLineEnd after := by
  obtain ⟨w, hs, hw⟩ := exists_prefers_blankTail after
  have hread : scriptReference.pattern.readAt last _ = _ :=
    readAt_of_prefers (prefers_scriptElement hq hne hw)
  rw [List.append_assoc, ← hs] at hread
  refine ⟨_, hread, ?_, rfl⟩
  exact List.take_left

/-! ## Leaving an element out -/

theorem scriptReference_sectioned : scriptReference.pattern.Sectioned := ⟨rfl, rfl, rfl⟩

/-- What stays of an element with a source. -/
def keptElement (h : Hit) : List Char :=
  if isLocalScript (String.ofList (h.groupText 1)) then [] else h.text

theorem dependsOnText_keptElement : DependsOnText keptElement := by
  intro h h' ht hg
  rw [keptElement, keptElement, ht, hg 1]

theorem ne_empty_of_isLocalScript (h : isLocalScript source = true) : source ≠ "" := by
  rintro rfl
  exact absurd h (by decide)

/-- The element stands for itself: it is not read as a part of an element that begins before it. -/
def StandsFree (before source after : String) : Prop :=
  scriptReference.pattern.ComesApart none before.toList (scriptElement source ++ after).toList

theorem exists_tagStart_of_reads (h : scriptReference.pattern.Reads last w rest) :
    ∃ t v, w = t ++ v ∧ (anyCase "<script").Reads last t (v ++ rest) := by
  obtain ⟨t, v, rfl, ht, -⟩ := h
  exact ⟨t, v, rfl, ht⟩

/-- An element stands free when no `script` tag begins before it. -/
theorem standsFree_of_not_occursIn (h : (anyCase "<script").occursIn before = false) :
    StandsFree before source after := by
  refine comesApart_of_reads rfl fun a b hab hb w rest hw hread => ?_
  exfalso
  obtain ⟨t, v, rfl, ht⟩ := exists_tagStart_of_reads hread
  -- The tag ends before the element: an angle bracket stands at its beginning only.
  have htag : ∃ b', b = t ++ b' := by
    rw [List.append_assoc] at hw
    rcases List.append_eq_append_iff.mp hw with ⟨t', rfl, hs⟩ | ⟨b', rfl, -⟩
    · obtain ⟨c, b, rfl⟩ := List.exists_cons_of_ne_nil hb
      obtain _ | ⟨-, hletters⟩ := (reads_anyCase "<script").mp ht
      cases t' with
      | nil => exact ⟨[], by simp⟩
      | cons d t' =>
        have hd : d = '<' := by
          rw [String.toList_append, toList_scriptElement] at hs
          exact (List.cons.inj hs).1.symm
        exact absurd hd (ne_lt_of_forall₂ (by decide) hletters d (by simp))
    · exact ⟨b', rfl⟩
  obtain ⟨b', rfl⟩ := htag
  have hocc : (anyCase "<script").occursIn before = true :=
    (occursIn_iff rfl).mpr ⟨a, t, b', hab, (Option.or_none ▸ ht).of_selfContained rfl⟩
  exact Bool.false_ne_true (h.symm.trans hocc)

/-- An element with a local script is left out, with the blanks and the line end behind it, and the
text on both sides is dealt with by itself. -/
theorem dropLocalScripts_append (hfree : StandsFree before source after)
    (hq : ∀ c ∈ source.toList, isQuote c = false) (hlocal : isLocalScript source = true) :
    dropLocalScripts (before ++ (scriptElement source ++ after)) =
      dropLocalScripts before ++ dropLocalScripts (String.ofList (afterLineEnd after.toList)) := by
  obtain ⟨h, hread, hgroup, hafter⟩ := readAt_scriptElement hq
    (ne_empty_of_isLocalScript hlocal) none after.toList
  rw [← String.toList_append] at hread
  have hkept : keptElement h = [] := by
    rw [keptElement, hgroup, String.ofList_toList, if_pos hlocal]
  have hdrop : dropLocalScripts (scriptElement source ++ after) =
      dropLocalScripts (String.ofList (afterLineEnd after.toList)) := by
    have hr := replace_of_readAt scriptReference_sectioned keptElement hread
    rw [hkept, hafter, List.nil_append] at hr
    exact String.toList_inj.mp hr
  rw [← hdrop]
  exact replace_append scriptReference_sectioned dependsOnText_keptElement hfree

end Workbench.Markup
