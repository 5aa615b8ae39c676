import Workbench.Proofs.File.Recognition
import Workbench.Proofs.Pattern.Lines

/-!
# Adding lines to a file

Module syntax that is found in a block of lines is found in every text in which these lines stand
(`isModule_of_linesIn`). So a module with the extension of a script is one for good, whatever lines
are added. Where the extension leaves the kind open, the text is first asked for the root of a page
and for a style rule, and the file remains a module as long as the new lines bring neither
(`module_stays_among_lines`).

Added within a line, a letter may take the edge of a word away and the mark with it.
-/

namespace Workbench.File

open Text Pattern

variable {name block text : String}

theorem isModule_of_linesIn (h : LinesIn block text) (hm : isModule name block = true) :
    isModule name text = true := by
  unfold isModule at hm ⊢
  rw [Bool.or_eq_true] at hm ⊢
  exact hm.imp_right (occursIn_of_linesIn (by decide) (by decide) h)

/-- The text holds what is looked for before module syntax: the root of a page or a style rule. -/
def IsPageOrStyle (text : String) : Prop :=
  pageRoot.occursIn text = true ∨ styleRule.occursIn text = true

theorem inspect_eq_moduleScript_iff {fallback : Kind} (hf : fallback ≠ .moduleScript) :
    inspect name text fallback = .moduleScript ↔
      isModule name text = true ∧ ¬ IsPageOrStyle text := by
  unfold inspect IsPageOrStyle
  cases pageRoot.occursIn text <;> cases styleRule.occursIn text <;> simp [hf]

/-- What makes a file a module, by the kind that its name stands for. -/
theorem recognise_eq_moduleScript_iff :
    recognise name (some text) = .moduleScript ↔
      kindOfName name = .moduleScript ∨
      (kindOfName name = .script ∧ isModule name text = true) ∨
      (kindOfName name ∈ [Kind.plain, .binary] ∧ isModule name text = true ∧
        ¬ IsPageOrStyle text) := by
  unfold recognise
  cases kindOfName name <;> simp [inspect_eq_moduleScript_iff]

/-- With more lines a module remains one by its extension or for want of anything else. -/
theorem recognise_iff_of_linesIn (h : LinesIn block text)
    (hr : recognise name (some block) = .moduleScript) :
    recognise name (some text) = .moduleScript ↔
      kindOfName name ∈ [Kind.script, .moduleScript] ∨ ¬ IsPageOrStyle text := by
  rw [recognise_eq_moduleScript_iff]
  rcases recognise_eq_moduleScript_iff.mp hr with hk | ⟨hk, hm⟩ | ⟨hk, hm, -⟩
  · simp [hk]
  · simp [hk, isModule_of_linesIn h hm]
  · have hm' := isModule_of_linesIn h hm
    rcases List.mem_pair.mp hk with hk | hk <;> simp [hk, hm']

/-- Module syntax is not lost when lines are added before a block of lines and behind it. A file
that is a module by the block remains one: with the extension of a script always, and with an
extension that leaves its kind open exactly if the longer text holds neither the root of a page nor
a style rule. -/
theorem module_stays_among_lines (name block : String) :
    (isModule name block = true →
      ∀ before behind, isModule name (before ++ "\n" ++ block ++ "\n" ++ behind) = true) ∧
    (recognise name (some block) = .moduleScript →
      ∀ text, LinesIn block text →
        (recognise name (some text) = .moduleScript ↔
          kindOfName name ∈ [Kind.script, .moduleScript] ∨ ¬ IsPageOrStyle text)) :=
  ⟨fun hm before behind => isModule_of_linesIn (linesIn_between before block behind) hm,
    fun hr _ h => recognise_iff_of_linesIn h hr⟩

theorem module_stays_among_lines_dividedLine :
    isModule "notes" "sum; export default" = true ∧
    isModule "notes" ("total(a," ++ "\n" ++ "sum; export default" ++ "\n" ++ "s)") = true ∧
    recognise "notes" (some "sum; export default") = .moduleScript ∧
    LinesIn "sum; export default" "sum; export default\ns" ∧
    recognise "notes" (some "sum; export default\ns") = .moduleScript := by
  have hm : isModule "notes" "sum; export default" = true := by decide
  have hr : recognise "notes" (some "sum; export default") = .moduleScript := by decide
  have hl : LinesIn "sum; export default" "sum; export default\ns" :=
    ⟨"", "\ns", rfl, .inl rfl, .inr (.inr rfl)⟩
  have hn : ¬ IsPageOrStyle "sum; export default\ns" := by
    unfold IsPageOrStyle
    decide
  have h := module_stays_among_lines "notes" "sum; export default"
  exact ⟨hm, h.1 hm "total(a," "s)", hr, hl, (h.2 hr _ hl).mpr (.inr hn)⟩

example : isModule "notes" ("sum; export default" ++ "s") = false := by decide

end Workbench.File
