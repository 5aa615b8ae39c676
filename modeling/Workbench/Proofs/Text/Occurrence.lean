import Mathlib.Algebra.GroupWithZero.Nat
import Workbench.Text.Basic

/-!
# Occurrences in any ASCII letter case

`Text.occurrences marker s` counts the places of `s` at which the lowercase text `marker` begins in
any ASCII letter case.

* `occurrences_eq_zero_iff`: none are counted exactly when no piece of the text is the marker.
* `occurrences_append`: the count is additive where a character that is not part of the marker
  stands at the seam; `occurrences_join` is the same for any number of texts that end with a
  newline.
-/

namespace Workbench.Text

variable {marker s t : List Char}

/-- Only capitals change in lower case, and they become small letters. -/
theorem eq_of_toLower_eq {a c : Char} (ha : a.toNat < 97) (h : c.toLower = a) : c = a := by
  unfold Char.toLower at h
  split at h
  · rename_i hc
    exfalso
    subst h
    have h₁ : 65 ≤ c.val.toNat := UInt32.le_iff_toNat_le.mp hc.1
    have h₂ : c.val.toNat ≤ 90 := UInt32.le_iff_toNat_le.mp hc.2
    have hd : ('a'.val - 'A'.val).toNat = 32 := rfl
    have hv : (c.val + ('a'.val - 'A'.val)).toNat = c.val.toNat + 32 := by
      rw [UInt32.toNat_add, hd]
      exact Nat.mod_eq_of_lt (by omega)
    have hl : (c.val + ('a'.val - 'A'.val)).toNat < 97 := ha
    omega
  · exact h

/-- The number of places of a text at which the marker begins, in any ASCII letter case. -/
def occurrences (marker : List Char) : List Char → Nat
  | [] => 0
  | c :: rest =>
    (if beginsAnyCase marker (c :: rest) then 1 else 0) + occurrences marker rest

theorem beginsAnyCase_iff :
    beginsAnyCase marker s = true ↔ ∃ w rest, s = w ++ rest ∧ w.map Char.toLower = marker := by
  rw [beginsAnyCase, beq_iff_eq]
  constructor
  · intro h
    exact ⟨s.take marker.length, s.drop marker.length, (List.take_append_drop _ _).symm, h⟩
  · rintro ⟨w, rest, rfl, rfl⟩
    rw [List.length_map, List.take_left]

theorem occurrences_eq_zero_iff (hm : marker ≠ []) :
    occurrences marker s = 0 ↔ ∀ a w b, s = a ++ (w ++ b) → w.map Char.toLower ≠ marker := by
  induction s with
  | nil =>
    refine iff_of_true rfl fun a w b h hw => hm ?_
    rw [← hw, (List.append_eq_nil_iff.mp (List.append_eq_nil_iff.mp h.symm).2).1, List.map_nil]
  | cons c rest ih =>
    have hb : beginsAnyCase marker (c :: rest) = false ↔
        ∀ w b, c :: rest = w ++ b → w.map Char.toLower ≠ marker := by
      rw [← Bool.not_eq_true, beginsAnyCase_iff]
      exact ⟨fun h w b hs hw => h ⟨w, b, hs, hw⟩, fun h ⟨w, b, hs, hw⟩ => h w b hs hw⟩
    rw [occurrences, Nat.add_eq_zero_iff, ih]
    constructor
    · rintro ⟨h₁, h₂⟩ a w b hs
      have hc : beginsAnyCase marker (c :: rest) = false := by simpa using h₁
      cases a with
      | nil => exact hb.mp hc w b hs
      | cons d a => exact h₂ a w b (List.cons.inj hs).2
    · intro h
      have hc := hb.mpr fun w b hs => h [] w b hs
      exact ⟨by simp [hc], fun a w b hs => h (c :: a) w b (congrArg _ hs)⟩

/-- A character that keeps the marker from running across the seam between two texts: the last one
of the first text is not part of the marker, or the first one of the second text is not part of it
after its beginning. -/
def Apart (marker s t : List Char) : Prop :=
  (∀ c, s.getLast? = some c → c.toLower ∉ marker) ∨
    ∀ c, t.head? = some c → c.toLower ∉ marker.tail

theorem Apart.of_cons {c : Char} (h : Apart marker (c :: s) t) : Apart marker s t := by
  refine h.imp_left fun h d hd => h d ?_
  rw [List.getLast?_cons, hd, Option.getD_some]

/-- A marker that begins in the first text ends in it. -/
theorem beginsAnyCase_append (h : Apart marker s t) (hs : s ≠ []) :
    beginsAnyCase marker (s ++ t) = beginsAnyCase marker s := by
  rw [Bool.eq_iff_iff, beginsAnyCase_iff, beginsAnyCase_iff]
  constructor
  · rintro ⟨w, rest, hw, hm⟩
    rcases List.append_eq_append_iff.mp hw with ⟨v, rfl, rfl⟩ | ⟨v, rfl, rfl⟩
    · cases v with
      | nil => exact ⟨s, [], by simp, by simpa using hm⟩
      | cons d v =>
        exfalso
        obtain ⟨u, c, rfl⟩ := List.eq_nil_or_concat s |>.resolve_left hs
        rcases h with h | h
        · refine h c (by simp) ?_
          rw [← hm]
          simp
        · refine h d rfl ?_
          rw [← hm]
          cases u <;> simp
    · exact ⟨w, v, rfl, hm⟩
  · rintro ⟨w, rest, rfl, hm⟩
    exact ⟨w, rest ++ t, List.append_assoc _ _ _, hm⟩

theorem occurrences_append (h : Apart marker s t) :
    occurrences marker (s ++ t) = occurrences marker s + occurrences marker t := by
  induction s with
  | nil => simp [occurrences]
  | cons c s ih =>
    have hb := beginsAnyCase_append h (List.cons_ne_nil c s)
    rw [List.cons_append] at hb
    rw [List.cons_append, occurrences, occurrences, hb, ih h.of_cons, Nat.add_assoc]

/-! ## Texts that end with a newline -/

/-- The text ends with a newline. -/
def EndsLine (s : String) : Prop := s.toList.getLast? = some '\n'

theorem EndsLine.append (s : String) {t : String} (h : EndsLine t) : EndsLine (s ++ t) := by
  rw [EndsLine, String.toList_append, List.getLast?_append, h, Option.some_or]

theorem endsLine_ofList {l : List Char} (h : l.getLast? = some '\n') :
    EndsLine (String.ofList l) := by
  rw [EndsLine, String.toList_ofList, h]

/-- No marker without a newline runs across the end of a line. -/
theorem occurrences_endsLine_append {s t : String} (hm : '\n' ∉ marker) (hs : EndsLine s) :
    occurrences marker (s ++ t).toList =
      occurrences marker s.toList + occurrences marker t.toList := by
  rw [String.toList_append]
  refine occurrences_append (Or.inl fun c hc => ?_)
  obtain rfl : '\n' = c := Option.some.inj (hs.symm.trans hc)
  exact hm

theorem occurrences_append_newline (hm : '\n' ∉ marker) (s : String) :
    occurrences marker (s ++ "\n").toList =
      occurrences marker s.toList + occurrences marker ['\n'] := by
  have ha : Apart marker s.toList ['\n'] := by
    refine .inr fun c hc => ?_
    obtain rfl : '\n' = c := Option.some.inj hc
    exact fun h => hm (List.mem_of_mem_tail h)
  rw [String.toList_append]
  exact occurrences_append ha

theorem occurrences_join_append {texts : List String} (hm : '\n' ∉ marker)
    (h : ∀ s ∈ texts, EndsLine s) (t : String) :
    occurrences marker (String.join texts ++ t).toList =
      (texts.map fun s => occurrences marker s.toList).sum + occurrences marker t.toList := by
  induction texts with
  | nil => simp
  | cons s texts ih =>
    rw [String.join_cons, String.append_assoc,
      occurrences_endsLine_append hm (h s List.mem_cons_self),
      ih fun t ht => h t (List.mem_cons_of_mem s ht), List.map_cons, List.sum_cons, Nat.add_assoc]

theorem occurrences_join {texts : List String} (hm : '\n' ∉ marker)
    (h : ∀ s ∈ texts, EndsLine s) :
    occurrences marker (String.join texts).toList =
      (texts.map fun s => occurrences marker s.toList).sum := by
  have hj := occurrences_join_append hm h ""
  rwa [String.append_empty] at hj

/-! ## Fixed texts -/

theorem occurrences_ofList {l : List Char} {n : Nat} (h : occurrences marker l = n) :
    occurrences marker (String.ofList l).toList = n := by
  rw [String.toList_ofList, h]

/-- A text without the first character of the marker, which is no small letter, is without the
marker. -/
theorem occurrences_of_not_mem {c : Char} (hc : c.toNat < 97) (h : c ∉ s) :
    occurrences (c :: marker) s = 0 := by
  refine (occurrences_eq_zero_iff (List.cons_ne_nil c marker)).mpr fun a w b hs hw => h ?_
  cases w with
  | nil => simp at hw
  | cons d w =>
    rw [hs, ← eq_of_toLower_eq hc (List.cons.inj hw).1]
    simp

end Workbench.Text
