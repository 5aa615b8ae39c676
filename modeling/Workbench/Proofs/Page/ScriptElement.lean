import Workbench.Page.Document
import Workbench.Proofs.Console.Instrument
import Workbench.Proofs.Markup.ScriptEnd

/-!
# Script elements and the texts inside them

Classic scripts are written through the rule `scriptEnd`, so no text of a user ends their element
(`classicBlock_escapes`): the rule sets a backslash at every `</script`, in any case, and does
nothing else. Case is folded, so a spelling with a long s is changed too, although no browser would
take it for the tag (`not_classicBlock_escapes_ascii_only`).

In the element of the modules only the linked script goes through the rule. The bare imports before
it do not, so an import whose specifier holds `</script` ends the element. `module_element_closed_iff`
says that this is the only way: the element stays closed exactly when no bare import of a module
holds `</script`, and `module_element_ended_by_import` is a page that has one.
-/

namespace Workbench.Page

open Markup Script

/-! ## Classic scripts -/

theorem endsLine_guardedScript (name code : String) : Text.EndsLine (guardedScript name code) :=
  .append _ (Text.endsLine_ofList (by decide))

theorem endsLine_classicBlock (name code : String) : Text.EndsLine (classicBlock name code) := by
  rw [Text.EndsLine, classicBlock, toList_apply_scriptEnd, getLast?_backslashed]
  exact endsLine_guardedScript name code

theorem occurrences_classicBlock (name code : String) :
    Text.occurrences scriptEndMarker (classicBlock name code).toList = 0 := by
  rw [classicBlock, occurrences_apply_scriptEnd]

theorem newline_not_mem_scriptEndMarker : '\n' ∉ scriptEndMarker := by decide

/-- No classic scripts together hold a `</script` in any ASCII letter case. Each is its guarded text
with a backslash between `<` and `/` at every `</script`, told up to folding case, and no other
change; these are the ASCII spellings unless the text has a long s. The rule finds nothing more. -/
theorem classicBlock_escapes :
    (∀ scripts : List (String × String),
      Text.occurrences scriptEndMarker
        (String.join (scripts.map fun f => classicBlock f.1 f.2)).toList = 0) ∧
    ∀ name code : String,
      (classicBlock name code).toList =
        backslashed (beginsFolded scriptEndMarker) (guardedScript name code).toList ∧
      ('\u017F' ∉ (guardedScript name code).toList →
        (classicBlock name code).toList =
          backslashed (Text.beginsAnyCase scriptEndMarker) (guardedScript name code).toList) ∧
      scriptEnd.apply (classicBlock name code) = classicBlock name code := by
  refine ⟨fun scripts => ?_, fun name code => ⟨?_, fun hs => ?_, ?_⟩⟩
  · have hl : ∀ s ∈ scripts.map fun f => classicBlock f.1 f.2, Text.EndsLine s := by
      intro s hs
      obtain ⟨f, -, rfl⟩ := List.mem_map.mp hs
      exact endsLine_classicBlock f.1 f.2
    have hn : ∀ s ∈ scripts.map fun f => classicBlock f.1 f.2,
        Text.occurrences scriptEndMarker s.toList = 0 := by
      intro s hs
      obtain ⟨f, -, rfl⟩ := List.mem_map.mp hs
      exact occurrences_classicBlock f.1 f.2
    rw [Text.occurrences_join newline_not_mem_scriptEndMarker hl,
      List.sum_eq_zero_iff_forall_eq_nat]
    intro n h
    obtain ⟨s, hs, rfl⟩ := List.mem_map.mp h
    exact hn s hs
  · rw [classicBlock, toList_apply_scriptEnd]
  · rw [classicBlock, toList_apply_scriptEnd]
    refine backslashed_congr fun a b h => beginsFolded_eq_beginsAnyCase fun hb => hs ?_
    rw [h]
    exact List.mem_append_right a hb
  · rw [classicBlock, apply_scriptEnd_twice]

/-- The rule changes more than the ASCII spellings: a closing tag with a long s gets a backslash. -/
theorem not_classicBlock_escapes_ascii_only :
    ¬ ∀ name code : String, (classicBlock name code).toList =
      backslashed (Text.beginsAnyCase scriptEndMarker) (guardedScript name code).toList := by
  intro h
  have := h "a.js" "x('</\u017Fcript>')"
  rw [classicBlock, toList_apply_scriptEnd] at this
  revert this
  decide

/-! ## The element of the modules -/

/-- What follows the linked script in its element. -/
def moduleCatch : String := "\x7d catch (err) \x7b\n  console.error('Module error:', err);\n\x7d\n"

/-- What the element of the modules holds between its opening line and its closing tag. -/
def moduleText (linked : Linked) : String :=
  String.join (linked.hoisted.map (· ++ "\n")) ++
    ("try \x7b\n" ++ (scriptEnd.apply linked.script ++ moduleCatch))

theorem occurrences_moduleCatch : Text.occurrences scriptEndMarker moduleCatch.toList = 0 :=
  Text.occurrences_ofList (by decide)

theorem head?_moduleCatch : moduleCatch.toList.head? = some '\x7d' := by
  unfold moduleCatch
  rw [(String.toList_ofList :
    "\x7d catch (err) \x7b\n  console.error('Module error:', err);\n\x7d\n".toList = _)]
  rfl

theorem moduleSection_eq {linked : Linked} (h : linked.isEmpty = false) :
    moduleSection linked =
      "<script type=\"module\">\n" ++ (moduleText linked ++ "</script>\n") := by
  have ht : "\x7d catch (err) \x7b\n  console.error('Module error:', err);\n\x7d\n</script>\n" =
      moduleCatch ++ "</script>\n" := by
    unfold moduleCatch
    have h₁ := (String.toList_ofList :
      "\x7d catch (err) \x7b\n  console.error('Module error:', err);\n\x7d\n".toList = _)
    have h₂ := (String.toList_ofList :
      "\x7d catch (err) \x7b\n  console.error('Module error:', err);\n\x7d\n</script>\n".toList = _)
    rw [← String.toList_inj, String.toList_append, h₁, h₂]
    rfl
  unfold moduleSection moduleText
  rw [h, if_neg Bool.false_ne_true, ht]
  simp only [String.append_assoc]

theorem block_ne_empty (m : Source) : m.block ≠ "" := by
  intro h
  unfold Source.block at h
  have h₁ := (String.append_eq_empty_iff.mp h).1
  have h₂ := (String.append_eq_empty_iff.mp h₁).1
  have h₃ := (String.append_eq_empty_iff.mp h₂).2
  exact absurd h₃ (by decide)

theorem link_isEmpty_eq_false {modules : List Source} (h : modules ≠ []) :
    (link modules).isEmpty = false := by
  obtain ⟨m, modules, rfl⟩ := List.exists_cons_of_ne_nil h
  have hs : (link (m :: modules)).script ≠ "" := by
    intro hs
    unfold link at hs
    have hj := (String.append_eq_empty_iff.mp hs).1
    rw [List.map_cons, String.join_cons] at hj
    exact block_ne_empty m (String.append_eq_empty_iff.mp hj).1
  rw [Linked.isEmpty, Bool.and_eq_false_iff]
  left
  rw [← Bool.not_eq_true, String.isEmpty_iff]
  exact hs

theorem filesOf_eq_self {role : Role} {files : List File} (h : ∀ f ∈ files, f.role = role) :
    filesOf role files = files :=
  List.filter_eq_self.mpr fun f hf => decide_eq_true (h f hf)

theorem filesOf_eq_nil {role role' : Role} {files : List File} (h : ∀ f ∈ files, f.role = role)
    (hne : role ≠ role') : filesOf role' files = [] :=
  List.filter_eq_nil_iff.mpr fun f hf => by simp [h f hf, hne]

/-- The page of module files is its frame, the console script and the element of the modules. -/
theorem ofFiles_modules {files : List File} (hne : files ≠ [])
    (hm : ∀ f ∈ files, f.role = .moduleScript) :
    ofFiles files = opening ++ (Console.instrument ++ (headToBody ++
      ("<script type=\"module\">\n" ++ (moduleText (link (files.map moduleOf)) ++
        ("</script>\n" ++ closing))))) := by
  have hl : (link (files.map moduleOf)).isEmpty = false :=
    link_isEmpty_eq_false (by simpa using hne)
  have hs : styleSection "" = "" := by decide
  have hc : classicSection "" = "" := by decide
  unfold ofFiles
  rw [filesOf_eq_self hm, filesOf_eq_nil hm (by decide), filesOf_eq_nil hm (by decide),
    filesOf_eq_nil hm (by decide), moduleSection_eq hl]
  simp only [List.map_nil, String.join_nil, hs, hc, String.append_assoc, String.empty_append]

/-- A marker that no line of the beginning of a page holds is not in the beginning. -/
theorem occurrences_opening_eq_zero {marker : List Char} (hm : '\n' ∉ marker)
    (h₁ : Text.occurrences marker
      "<!DOCTYPE html>\n<html>\n<head>\n<meta charset=\"UTF-8\">\n".toList = 0)
    (h₂ : Text.occurrences marker
      "<meta name=\"viewport\" content=\"width=device-width, initial-scale=1.0\">\n".toList = 0)
    (h₃ : Text.occurrences marker ("<title>" ++ (Settings.pageTitle ++ "</title>\n")).toList = 0) :
    Text.occurrences marker opening.toList = 0 := by
  have hA : Text.EndsLine "<!DOCTYPE html>\n<html>\n<head>\n<meta charset=\"UTF-8\">\n" :=
    Text.endsLine_ofList (by decide)
  have hB : Text.EndsLine
      "<meta name=\"viewport\" content=\"width=device-width, initial-scale=1.0\">\n" :=
    Text.endsLine_ofList (by decide)
  unfold opening
  simp only [String.append_assoc]
  rw [Text.occurrences_endsLine_append hm hA, Text.occurrences_endsLine_append hm hB, h₁, h₂, h₃]

/-- The beginning of a page and the console script can be looked at apart from the rest. -/
theorem occurrences_beginning_append {marker : List Char} (hm : '\n' ∉ marker) (rest : String) :
    Text.occurrences marker (opening ++ (Console.instrument ++ rest)).toList =
      Text.occurrences marker opening.toList + (Text.occurrences marker Console.instrument.toList +
        Text.occurrences marker rest.toList) := by
  have ho : Text.EndsLine opening := .append _ (Text.endsLine_ofList (by decide))
  rw [Text.occurrences_endsLine_append hm ho,
    Text.occurrences_endsLine_append hm Console.endsLine_instrument]

theorem endsLine_headToBody : Text.EndsLine headToBody := Text.endsLine_ofList (by decide)

theorem occurrences_opening : Text.occurrences scriptEndMarker opening.toList = 0 :=
  occurrences_opening_eq_zero newline_not_mem_scriptEndMarker
    (Text.occurrences_ofList (by decide)) (Text.occurrences_ofList (by decide))
    (by decide)

/-- Of the texts in the element only the bare imports can hold a `</script`. -/
theorem occurrences_moduleText (linked : Linked) :
    Text.occurrences scriptEndMarker (moduleText linked).toList =
      (linked.hoisted.map fun statement =>
        Text.occurrences scriptEndMarker statement.toList).sum := by
  have hl : ∀ s ∈ linked.hoisted.map (· ++ "\n"), Text.EndsLine s := by
    intro s hs
    obtain ⟨statement, -, rfl⟩ := List.mem_map.mp hs
    exact .append statement (Text.endsLine_ofList (by decide))
  have hn (statement : String) : Text.occurrences scriptEndMarker (statement ++ "\n").toList =
      Text.occurrences scriptEndMarker statement.toList :=
    Text.occurrences_append_newline newline_not_mem_scriptEndMarker statement
  have hb : Text.occurrences scriptEndMarker
      ("try \x7b\n" ++ (scriptEnd.apply linked.script ++ moduleCatch)).toList = 0 := by
    have ht : Text.EndsLine "try \x7b\n" := Text.endsLine_ofList (by decide)
    have ha : Text.Apart scriptEndMarker (scriptEnd.apply linked.script).toList
        moduleCatch.toList := by
      refine Or.inr fun c hc => ?_
      obtain rfl : '\x7d' = c := Option.some.inj (head?_moduleCatch.symm.trans hc)
      decide
    rw [Text.occurrences_endsLine_append newline_not_mem_scriptEndMarker ht, String.toList_append,
      Text.occurrences_append ha, occurrences_apply_scriptEnd, occurrences_moduleCatch,
      Text.occurrences_ofList (n := 0) (by decide)]
  rw [moduleText, Text.occurrences_join_append newline_not_mem_scriptEndMarker hl, hb, List.map_map,
    Nat.add_zero]
  exact congrArg List.sum (List.map_congr_left fun statement _ => hn statement)

theorem occurrences_hoisted {modules : List Source} :
    ((link modules).hoisted.map fun statement =>
        Text.occurrences scriptEndMarker statement.toList).sum = 0 ↔
      ∀ m ∈ modules, ∀ statement ∈ m.bareImports,
        Text.occurrences scriptEndMarker statement.toList = 0 := by
  rw [List.sum_eq_zero_iff_forall_eq_nat, link]
  constructor
  · intro h m hm statement hs
    refine h _ (List.mem_map_of_mem ?_)
    exact List.mem_eraseDups.mpr (List.mem_flatMap.mpr ⟨m, hm, hs⟩)
  · intro h n hn
    obtain ⟨statement, hs, rfl⟩ := List.mem_map.mp hn
    obtain ⟨m, hm, hs⟩ := List.mem_flatMap.mp (List.mem_eraseDups.mp hs)
    exact h m hm statement hs

theorem endsLine_moduleText (linked : Linked) : Text.EndsLine (moduleText linked) :=
  .append _ (.append _ (.append _ (Text.endsLine_ofList (by decide))))

theorem occurrences_page {inner : String} (hi : Text.EndsLine inner) :
    Text.occurrences scriptEndMarker (opening ++ (Console.instrument ++ (headToBody ++
        ("<script type=\"module\">\n" ++ (inner ++ ("</script>\n" ++ closing)))))).toList =
      2 + Text.occurrences scriptEndMarker inner.toList := by
  have happ {s t : String} := Text.occurrences_endsLine_append (s := s) (t := t)
    newline_not_mem_scriptEndMarker
  have hs : Text.EndsLine "<script type=\"module\">\n" := Text.endsLine_ofList (by decide)
  have he : Text.EndsLine "</script>\n" := Text.endsLine_ofList (by decide)
  have hn : Text.occurrences scriptEndMarker Console.instrument.toList = 1 := by
    rw [scriptEndMarker, Console.occurrences_instrument (by decide) (by decide)]
    exact congrArg₂ (· + ·) (Text.occurrences_ofList (n := 0) (by decide))
      (Text.occurrences_ofList (n := 1) (by decide))
  have h₁ : Text.occurrences scriptEndMarker headToBody.toList = 0 :=
    Text.occurrences_ofList (by decide)
  have h₂ : Text.occurrences scriptEndMarker "<script type=\"module\">\n".toList = 0 :=
    Text.occurrences_ofList (by decide)
  have h₃ : Text.occurrences scriptEndMarker "</script>\n".toList = 1 :=
    Text.occurrences_ofList (by decide)
  have h₄ : Text.occurrences scriptEndMarker closing.toList = 0 :=
    Text.occurrences_ofList (by decide)
  rw [occurrences_beginning_append newline_not_mem_scriptEndMarker, happ endsLine_headToBody,
    happ hs, happ hi, happ he, occurrences_opening, hn, h₁, h₂, h₃, h₄]
  omega

theorem occurrences_ofFiles_modules {files : List File} (hne : files ≠ [])
    (hm : ∀ f ∈ files, f.role = .moduleScript) :
    Text.occurrences scriptEndMarker (ofFiles files).toList = 2 + Text.occurrences scriptEndMarker
      (moduleText (link (files.map moduleOf))).toList := by
  rw [ofFiles_modules hne hm, occurrences_page (endsLine_moduleText _)]

/-- A page of module files holds the closing tag of the console script, the one of its module
element, and those that the text in the module element holds. There are none of these exactly when
no bare import of a module holds `</script`: a bare import does not go through the rule. -/
theorem module_element_closed_iff (files : List File) (hne : files ≠ [])
    (hm : ∀ f ∈ files, f.role = .moduleScript) :
    ofFiles files = opening ++ (Console.instrument ++ (headToBody ++
      ("<script type=\"module\">\n" ++ (moduleText (link (files.map moduleOf)) ++
        ("</script>\n" ++ closing))))) ∧
    Text.occurrences scriptEndMarker (ofFiles files).toList = 2 + Text.occurrences scriptEndMarker
      (moduleText (link (files.map moduleOf))).toList ∧
    (Text.occurrences scriptEndMarker (moduleText (link (files.map moduleOf))).toList = 0 ↔
      ∀ f ∈ files, ∀ statement ∈ (moduleOf f).bareImports,
        Text.occurrences scriptEndMarker statement.toList = 0) := by
  refine ⟨ofFiles_modules hne hm, occurrences_ofFiles_modules hne hm, ?_⟩
  rw [occurrences_moduleText, occurrences_hoisted, List.forall_mem_map]

/-- A module whose import ends the element it is in. -/
def endingModule : File :=
  .new 1 "m.mjs" .moduleScript (.text "import 'x</script>y';\n")

theorem module_element_closed_iff_endingModule :
    [endingModule] ≠ [] ∧ (∀ f ∈ [endingModule], f.role = .moduleScript) ∧
    ¬ Text.occurrences scriptEndMarker
      (moduleText (link ([endingModule].map moduleOf))).toList = 0 := by
  have hne : [endingModule] ≠ [] := List.cons_ne_nil _ _
  have hm : ∀ f ∈ [endingModule], f.role = .moduleScript := by decide
  refine ⟨hne, hm, fun h => ?_⟩
  have hb := (module_element_closed_iff [endingModule] hne hm).2.2.mp h endingModule
    List.mem_cons_self
  revert hb
  decide

/-- A page of module files can hold more closing tags than its own two. -/
theorem module_element_ended_by_import :
    ¬ ∀ files : List File, files ≠ [] → (∀ f ∈ files, f.role = .moduleScript) →
      Text.occurrences scriptEndMarker (ofFiles files).toList = 2 := by
  intro h
  have hne : [endingModule] ≠ [] := List.cons_ne_nil _ _
  have hm : ∀ f ∈ [endingModule], f.role = .moduleScript := by decide
  have ho := h [endingModule] hne hm
  rw [occurrences_ofFiles_modules hne hm, occurrences_moduleText] at ho
  revert ho
  decide

end Workbench.Page
