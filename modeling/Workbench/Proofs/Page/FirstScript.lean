import Workbench.Project.Basic
import Workbench.Proofs.Page.ScriptElement

/-!
# The console script and the scripts of the page

The console script reports only what happens after it has run, so it should stand before every other
script (`Leads`). A page of several files begins with the same text up to its end, and so does a
page that is made around a text without a head.

An authored document with a head gets the console script at the end of the head, behind all scripts
that the head has. `console_script_leads_iff` is the exact condition: the console script comes first
unless the head has a script, and the first one there is no copy of the console script itself.
`not_forall_leads` is a document with a script in its head.
-/

namespace Workbench.Console

theorem exists_instrument_eq : ∃ u t, instrument.toList = '<' :: 's' :: (u ++ '<' :: '/' :: t) ∧
    '<' ∉ u ∧ '<' ∉ t := by
  obtain ⟨inner, hi, hlt⟩ := exists_inner_instrument
  refine ⟨"cript>\n".toList ++ inner.toList, "script>\n".toList, ?_, ?_, by decide⟩
  · rw [hi, String.toList_append, String.toList_append]
    simp
  · rw [List.mem_append, not_or]
    exact ⟨by decide, hlt⟩

/-- No copy of the console script begins inside another one. -/
theorem instrument_apart {v w a z : List Char} (hi : instrument.toList = v ++ w)
    (hz : w ++ z = instrument.toList ++ a) : v = [] ∨ w = [] := by
  obtain ⟨u, t, he, hu, ht⟩ := exists_instrument_eq
  rw [he] at hi hz
  cases v with
  | nil => exact .inl rfl
  | cons c v =>
    cases w with
    | nil => exact .inr rfl
    | cons d w =>
      -- The second part begins with the one other `<`, where a closing tag stands.
      obtain rfl : d = '<' := (List.cons.inj hz).1
      have hsplit : 's' :: u ++ '<' :: '/' :: t = v ++ '<' :: w := (List.cons.inj hi).2
      have hu' : '<' ∉ 's' :: u := by simp [hu]
      have ht' : '<' ∉ '/' :: t := by simp [ht]
      obtain ⟨-, -, rfl⟩ := (List.append_cons_inj_of_notMem hu' ht').mp hsplit
      exact absurd (List.cons.inj (List.cons.inj hz).2).1 (by decide)

end Workbench.Console

namespace Workbench.Page

open Text

/-- The beginning of a `script` element, in lower case. -/
def scriptStart : List Char := ['<', 's', 'c', 'r', 'i', 'p', 't']

/-- The page has the console script, and no `script` element begins before it. -/
def Leads (page : List Char) : Prop :=
  ∃ before after, page = before ++ (Console.instrument.toList ++ after) ∧
    occurrences scriptStart before = 0

theorem occurrences_eq_zero_of_append {marker s t : List Char} (hm : marker ≠ [])
    (h : occurrences marker (s ++ t) = 0) : occurrences marker s = 0 := by
  rw [occurrences_eq_zero_iff hm] at h ⊢
  rintro a w b rfl
  exact h a w (b ++ t) (by simp only [List.append_assoc])

/-- A page with the console script in it has it first exactly when no script stands before it, or
else a copy of the console script comes first. -/
theorem leads_append_iff {before after : List Char} :
    Leads (before ++ (Console.instrument.toList ++ after)) ↔
      occurrences scriptStart before = 0 ∨ Leads before := by
  constructor
  · rintro ⟨x, z, h, hx⟩
    refine or_iff_not_imp_left.mpr fun hne => ?_
    rcases List.append_eq_append_iff.mp h with ⟨v, rfl, -⟩ | ⟨v, rfl, hv⟩
    · exact absurd (occurrences_eq_zero_of_append (List.cons_ne_nil _ _) hx) hne
    · rcases List.append_eq_append_iff.mp hv with ⟨w, hw, -⟩ | ⟨w, hi, hz⟩
      · exact ⟨x, w, congrArg (x ++ ·) hw, hx⟩
      · rcases Console.instrument_apart hi hz.symm with rfl | rfl
        · rw [List.append_nil] at hne
          exact absurd hx hne
        · exact ⟨x, [], by rw [hi, List.append_nil, List.append_nil], hx⟩
  · rintro (h | ⟨x, z, rfl, hx⟩)
    · exact ⟨before, after, rfl, h⟩
    · exact ⟨x, z ++ (Console.instrument.toList ++ after), by simp only [List.append_assoc], hx⟩

theorem occurrences_scriptStart_opening : occurrences scriptStart opening.toList = 0 :=
  occurrences_opening_eq_zero (by decide) (occurrences_ofList (by decide))
    (occurrences_ofList (by decide)) (by decide)

/-! ## The beginnings of pages -/

theorem leads_opening (rest : String) :
    Leads (opening ++ (Console.instrument ++ rest)).toList :=
  ⟨opening.toList, rest.toList, by simp only [String.toList_append],
    occurrences_scriptStart_opening⟩

theorem exists_ofFiles_eq (files : List File) :
    ∃ rest, ofFiles files = opening ++ (Console.instrument ++ rest) := by
  unfold ofFiles
  simp only [String.append_assoc]
  exact ⟨_, rfl⟩

theorem exists_ofDocument_eq {content : String}
    (h : splitBefore? headEnd content.toList = none) :
    ∃ rest, ofDocument content = opening ++ (Console.instrument ++ rest) := by
  unfold ofDocument
  simp only [h, String.append_assoc]
  exact ⟨_, rfl⟩

theorem toList_ofDocument {content : String} {before after : List Char}
    (h : splitBefore? headEnd content.toList = some (before, after)) :
    (ofDocument content).toList = before ++ (Console.instrument.toList ++ after) := by
  unfold ofDocument
  simp only [h, String.toList_append, String.toList_ofList, List.append_assoc]

/-- The page of every project has the console script. In the mode of several files all pages begin
with the same text up to its end, without another script; in the mode of a single document no script
comes before it unless there is one before the end of the head, and the first of these is no copy of
the console script. -/
theorem console_script_leads_iff (p : Project) :
    (∃ before after, p.page.toList = before ++ (Console.instrument.toList ++ after)) ∧
    (p.mode = .multi → ∃ rest, p.page = opening ++ (Console.instrument ++ rest)) ∧
    (Leads p.page.toList ↔ (p.mode = .single → ∀ before after,
      splitBefore? headEnd p.soloText.toList = some (before, after) →
        occurrences scriptStart before = 0 ∨ Leads before)) := by
  cases hm : p.mode with
  | multi =>
    obtain ⟨rest, hr⟩ := exists_ofFiles_eq p.files
    have hp : p.page = opening ++ (Console.instrument ++ rest) := by rw [Project.page, hm, hr]
    have hl : Leads p.page.toList := hp ▸ leads_opening rest
    obtain ⟨before, after, hb, -⟩ := id hl
    exact ⟨⟨before, after, hb⟩, fun _ => ⟨rest, hp⟩, iff_of_true hl nofun⟩
  | single =>
    have hp : p.page = ofDocument p.soloText := by rw [Project.page, hm]
    cases hs : splitBefore? headEnd p.soloText.toList with
    | none =>
      obtain ⟨rest, hr⟩ := exists_ofDocument_eq hs
      have hl : Leads p.page.toList := by
        rw [hp, hr]
        exact leads_opening rest
      obtain ⟨before, after, hb, -⟩ := id hl
      exact ⟨⟨before, after, hb⟩, nofun,
        iff_of_true hl fun _ _ _ h => absurd h.symm (Option.some_ne_none _)⟩
    | some parts =>
      obtain ⟨before, after⟩ := parts
      have hb : p.page.toList = before ++ (Console.instrument.toList ++ after) :=
        hp ▸ toList_ofDocument hs
      refine ⟨⟨before, after, hb⟩, nofun, ?_⟩
      rw [hb, leads_append_iff]
      constructor
      · rintro h - _ _ he
        cases he
        exact h
      · exact fun h => h rfl before after rfl

theorem not_leads_of_newline {before : List Char} (h : '\n' ∉ before) : ¬ Leads before := by
  rintro ⟨x, z, rfl, -⟩
  have hm : '\n' ∈ Console.instrument.toList := List.mem_of_getLast? Console.endsLine_instrument
  exact h (List.mem_append_right x (List.mem_append_left z hm))

/-- A project whose one document has a script in its head. -/
def scriptedHead : Project :=
  (Project.new .single).add "index.html" .html
    (.text "<html><head><script>console.log(1)</script></head><body></body></html>")

theorem splitBefore?_scriptedHead : splitBefore? headEnd scriptedHead.soloText.toList =
    some ("<html><head><script>console.log(1)</script>".toList,
      "</head><body></body></html>".toList) := by
  decide

theorem not_scriptless_or_leads :
    ¬ (occurrences scriptStart "<html><head><script>console.log(1)</script>".toList = 0 ∨
      Leads "<html><head><script>console.log(1)</script>".toList) := by
  rintro (h | h)
  · revert h
    decide
  · exact not_leads_of_newline (by decide) h

theorem console_script_leads_iff_scriptedHead :
    scriptedHead.mode = .single ∧
    splitBefore? headEnd scriptedHead.soloText.toList =
      some ("<html><head><script>console.log(1)</script>".toList,
        "</head><body></body></html>".toList) ∧
    ¬ Leads scriptedHead.page.toList :=
  ⟨rfl, splitBefore?_scriptedHead, fun h => not_scriptless_or_leads <|
    (console_script_leads_iff scriptedHead).2.2.mp h rfl _ _ splitBefore?_scriptedHead⟩

/-- A script can come before the console script. -/
theorem not_forall_leads : ¬ ∀ p : Project, Leads p.page.toList := by
  intro h
  have hs := h scriptedHead
  have hp : scriptedHead.page = ofDocument scriptedHead.soloText := rfl
  rw [hp, toList_ofDocument splitBefore?_scriptedHead, leads_append_iff] at hs
  exact not_scriptless_or_leads hs

end Workbench.Page
