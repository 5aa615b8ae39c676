import Mathlib.Data.List.TakeWhile
import Workbench.Text.Basic

/-!
# Trimmed texts

Trimming the end of a text takes blanks off until none is left there. Blanks behind the text do not
count (`dropBlankTail_append_blanks`), and a text that ends with no blank stays as it is
(`dropBlankTail_eq_self`). Trimming takes nothing off a beginning that has no blank at its two ends
(`prefix_trim`).
-/

namespace Workbench.Text

variable {s b : List Char}

theorem dropBlankTail_append_blanks (s : List Char) (hb : ∀ c ∈ b, isBlank c = true) :
    dropBlankTail (s ++ b) = dropBlankTail s := by
  rw [dropBlankTail, List.reverse_append, List.dropWhile_append_of_pos]
  · rfl
  · exact fun c hc => hb c (List.mem_reverse.mp hc)

/-- Trimming leaves nothing exactly of a blank text. -/
theorem dropBlankTail_dropWhile_eq_nil_iff :
    dropBlankTail (s.dropWhile isBlank) = [] ↔ ∀ c ∈ s, isBlank c = true := by
  rw [dropBlankTail, List.reverse_eq_nil_iff, List.dropWhile_eq_nil_iff]
  simp only [List.mem_reverse]
  constructor
  · intro h
    rw [← List.takeWhile_append_dropWhile (p := isBlank) (l := s)]
    intro c hc
    exact (List.mem_append.mp hc).elim (List.all_eq_true.mp List.all_takeWhile c) (h c)
  · intro h c hc
    exact h c ((List.dropWhile_suffix _).subset hc)

/-- A trimmed text ends with no blank. -/
theorem isBlank_getLast?_dropBlankTail {c : Char} (h : (dropBlankTail s).getLast? = some c) :
    isBlank c = false := by
  have hstop := List.head?_dropWhile_not isBlank s.reverse
  rw [dropBlankTail, List.getLast?_reverse] at h
  rw [h] at hstop
  simpa using hstop

theorem dropBlankTail_eq_self (h : ∀ c, s.getLast? = some c → isBlank c = false) :
    dropBlankTail s = s := by
  rcases List.eq_nil_or_concat s with rfl | ⟨t, c, rfl⟩
  · rfl
  · have hc : ¬ isBlank c = true := by simpa using h c (by simp)
    rw [dropBlankTail, List.concat_eq_append, List.reverse_append, List.reverse_singleton,
      List.singleton_append, List.dropWhile_cons_of_neg hc, List.reverse_cons, List.reverse_reverse]

/-- A text that neither begins nor ends with a blank stays as it is. -/
theorem trim_eq_self {s : String} (hhead : ∀ c, s.toList.head? = some c → isBlank c = false)
    (hlast : ∀ c, s.toList.getLast? = some c → isBlank c = false) : trim s = s := by
  have hdrop : s.toList.dropWhile isBlank = s.toList := by
    cases hs : s.toList with
    | nil => rfl
    | cons c t =>
      have hc := hhead c (by rw [hs]; rfl)
      exact List.dropWhile_cons_of_neg (by simp [hc])
  rw [trim, hdrop, dropBlankTail_eq_self hlast, String.ofList_toList]

theorem prefix_dropBlankTail {w : List Char} (hw : w <+: s)
    (hlast : ∀ c, w.getLast? = some c → isBlank c = false) : w <+: dropBlankTail s := by
  obtain ⟨tail, hs, htail⟩ := dropBlankTail_append s
  refine (List.prefix_or_prefix_of_prefix hw ⟨tail, hs.symm⟩).elim id fun h => ?_
  obtain ⟨x, rfl⟩ := h
  obtain ⟨y, hy⟩ := hw
  -- what stands behind the trimmed text is blank, but the beginning ends with no blank
  have hx : x <+: tail := ⟨y, List.append_cancel_left (by rw [← List.append_assoc, hy, ← hs])⟩
  rcases List.eq_nil_or_concat x with rfl | ⟨y, c, rfl⟩
  · simp
  · have hblank : isBlank c = true := htail c (hx.subset (by simp))
    exact absurd (hlast c (by simp)) (by simp [hblank])

theorem prefix_trim {s : String} {w : List Char} (hw : w <+: s.toList)
    (hhead : ∃ c t, w = c :: t ∧ isBlank c = false)
    (hlast : ∀ c, w.getLast? = some c → isBlank c = false) : w <+: (trim s).toList := by
  obtain ⟨c, t, rfl, hc⟩ := hhead
  obtain ⟨x, hx⟩ := hw
  have hdrop : s.toList.dropWhile isBlank = s.toList := by
    rw [← hx]
    exact List.dropWhile_cons_of_neg (by simp [hc])
  rw [trim, String.toList_ofList, hdrop]
  exact prefix_dropBlankTail ⟨x, hx⟩ hlast

end Workbench.Text
