import Mathlib.Tactic.Common
import Workbench.Text.Basic
import Workbench.Text.Word

/-!
# Blanks and word characters

No blank is a word character (`isWord_eq_false_of_isBlank`). Above ASCII both classes are lists of
ranges, and no range of the one meets a range of the other.
-/

namespace Workbench.Text

theorem isBlank_iff {c : Char} : isBlank c = true ↔
    ∃ r ∈ blankRanges, r.1 ≤ c.toNat ∧ c.toNat ≤ r.2 :=
  inRanges_iff

theorem isBlank_of_lt {c : Char} (h : isBlank c = true) (hc : c.toNat < 0x80) :
    c.toNat < 0x21 := by
  obtain ⟨r, hr, h₁, h₂⟩ := isBlank_iff.mp h
  have hb : ∀ r ∈ blankRanges, r.2 < 0x21 ∨ 0x80 ≤ r.1 := by decide
  have := hb r hr
  omega

theorem lt_of_isLetter {c : Char} (h : isLetter c = true) : 0x40 < c.toNat ∧ c.toNat < 0x7B := by
  have h' : ('a' ≤ c ∧ c ≤ 'z') ∨ ('A' ≤ c ∧ c ≤ 'Z') := by simpa [isLetter] using h
  have hn (a b : Char) (hab : a ≤ b) : a.toNat ≤ b.toNat := hab
  rcases h' with ⟨h₁, h₂⟩ | ⟨h₁, h₂⟩
  · have := hn _ _ h₁
    have := hn _ _ h₂
    have : 'a'.toNat = 97 := rfl
    have : 'z'.toNat = 122 := rfl
    omega
  · have := hn _ _ h₁
    have := hn _ _ h₂
    have : 'A'.toNat = 65 := rfl
    have : 'Z'.toNat = 90 := rfl
    omega

theorem lt_of_isAsciiWord {c : Char} (h : isAsciiWord c = true) :
    0x2F < c.toNat ∧ c.toNat < 0x7B := by
  have h' : isLetter c = true ∨ ('0' ≤ c ∧ c ≤ '9') ∨ c = '_' := by
    simpa [isAsciiWord, or_assoc] using h
  have hn (a b : Char) (hab : a ≤ b) : a.toNat ≤ b.toNat := hab
  rcases h' with h | ⟨h₁, h₂⟩ | rfl
  · have := lt_of_isLetter h
    omega
  · have := hn _ _ h₁
    have := hn _ _ h₂
    have : '0'.toNat = 48 := rfl
    have : '9'.toNat = 57 := rfl
    omega
  · decide

theorem isLetter_of_toLower {c : Char} (h : isLetter c.toLower = true) : isLetter c = true := by
  unfold Char.toLower at h
  split at h
  · rename_i hc
    have hupper : 'A' ≤ c ∧ c ≤ 'Z' := hc
    simp [isLetter, hupper]
  · exact h

/-- A blank has no lowercase form besides itself. -/
theorem toLower_of_isBlank {c : Char} (h : isBlank c = true) : c.toLower = c := by
  unfold Char.toLower
  split
  · rename_i hc
    have hupper : 'A' ≤ c ∧ c ≤ 'Z' := hc
    have := lt_of_isLetter (c := c) (by simp [isLetter, hupper])
    have := isBlank_of_lt h (by omega)
    omega
  · rfl

theorem isWord_of_isLetter {c : Char} (h : isLetter c = true) : isWord c = true := by
  refine isWord_of_isAsciiWord ?_ (by simp [isAsciiWord, h])
  have := lt_of_isLetter h
  omega

/-- No range of blanks above ASCII meets a range of word characters. -/
theorem blankRanges_apart : (blankRanges.all fun r => wordRanges.all fun w =>
    Nat.blt r.2 0x80 || Nat.blt r.2 w.1 || Nat.blt w.2 r.1) = true := by
  decide +kernel

theorem isWord_eq_false_of_isBlank {c : Char} (h : isBlank c = true) : isWord c = false := by
  rw [← Bool.not_eq_true, isWord]
  split
  · rename_i hc
    intro hw
    have := isBlank_of_lt h hc
    have := lt_of_isAsciiWord hw
    omega
  · intro hw
    obtain ⟨r, hr, h₁, h₂⟩ := isBlank_iff.mp h
    obtain ⟨w, hw, h₃, h₄⟩ := inRanges_iff.mp hw
    have hd := List.all_eq_true.mp (List.all_eq_true.mp blankRanges_apart r hr) w hw
    simp only [Bool.or_eq_true, Nat.blt_eq] at hd
    omega

theorem isBlank_eq_false_of_isWord {c : Char} (h : isWord c = true) : isBlank c = false := by
  by_contra hb
  rw [Bool.not_eq_false] at hb
  exact Bool.false_ne_true ((isWord_eq_false_of_isBlank hb).symm.trans h)

/-- Beside a line there is a newline or nothing, and neither belongs to a word. -/
theorem any_isWord_eq_false {c? : Option Char} (h : c? = none ∨ c? = some '\n') :
    c?.any isWord = false := by
  rcases h with rfl | rfl
  · rfl
  · exact isWord_eq_false_of_isBlank (by decide)

end Workbench.Text
