import Workbench.Markup.Reference
import Workbench.Proofs.Text.Classes
import Workbench.Proofs.Text.Trim

/-!
# Which references are external

A reference is external when it is blank, or when one of the beginnings that lead out of the project
stands behind its first blanks, in any ASCII letter case (`isExternal_iff`). What follows makes no
difference, so an external reference is still external if it is cut at its first quote
(`isExternal_takeWhile`).
-/

namespace Workbench.Markup

open Script Text

variable {w x : List Char} {c : Char}

theorem not_isQuote_of_isBlank (h : isBlank c = true) : (!isQuote c) = true := by
  by_contra hquote
  have hquote : isQuote c = true := by simpa using hquote
  exact Bool.false_ne_true ((isBlank_eq_false_of_isQuote hquote).symm.trans h)

/-- A beginning that leads out of the project, in any ASCII letter case. -/
def LeadsOut (x : List Char) : Prop := ∃ start ∈ externalStarts, x.map Char.toLower = start.toList

theorem LeadsOut.forall_not_isQuote (h : LeadsOut x) : ∀ c ∈ x, (!isQuote c) = true := by
  intro c hc
  obtain ⟨start, hstart, hx⟩ := h
  have hstarts : ∀ start ∈ externalStarts, start.toList.all (fun c => !isQuote c) = true := by decide
  have hlower := List.all_eq_true.mp (hstarts start hstart) c.toLower (hx ▸ List.mem_map_of_mem hc)
  by_contra hquote
  have hquote : isQuote c = true := by simpa using hquote
  have hsame : c.toLower = c := by rcases isQuote_iff.mp hquote with rfl | rfl <;> rfl
  rw [hsame, hquote] at hlower
  exact Bool.false_ne_true hlower

/-- Such a beginning neither begins nor ends with a blank. -/
theorem LeadsOut.solid (h : LeadsOut x) : (∃ c y, x = c :: y ∧ isBlank c = false) ∧
    ∀ c, x.getLast? = some c → isBlank c = false := by
  obtain ⟨start, hstart, hx⟩ := h
  have hstarts : ∀ start ∈ externalStarts, start.toList.head?.any (fun c => !isBlank c) = true ∧
    start.toList.getLast?.all (fun c => !isBlank c) = true := by decide
  obtain ⟨hhead, hlast⟩ := hstarts start hstart
  have hsolid (c : Char) (hc : isBlank c.toLower = false) : isBlank c = false := by
    by_contra hblank
    rw [Bool.not_eq_false] at hblank
    rw [toLower_of_isBlank hblank, hblank] at hc
    exact Bool.false_ne_true hc.symm
  rw [← hx] at hhead hlast
  constructor
  · cases x with
    | nil => exact absurd hhead Bool.false_ne_true
    | cons c y => exact ⟨c, y, rfl, hsolid c (by simpa using hhead)⟩
  · intro c hc
    rw [List.getLast?_map, hc] at hlast
    exact hsolid c (by simpa using hlast)

theorem toList_trim (s : String) : (trim s).toList = dropBlankTail (s.toList.dropWhile isBlank) := by
  rw [trim, String.toList_ofList]

/-- What makes a reference external stands behind its first blanks. -/
theorem isExternal_iff : isExternal (String.ofList w) = true ↔ (∀ c ∈ w, isBlank c = true) ∨
    ∃ b x y, w = b ++ (x ++ y) ∧ (∀ c ∈ b, isBlank c = true) ∧ LeadsOut x := by
  have htrim : (trim (String.ofList w)).toList = dropBlankTail (w.dropWhile isBlank) := by
    rw [toList_trim, String.toList_ofList]
  rw [isExternal, Bool.or_eq_true, String.isEmpty_iff, ← String.toList_eq_nil_iff, toList_asciiLower,
    List.map_eq_nil_iff, htrim]
  refine or_congr dropBlankTail_dropWhile_eq_nil_iff ?_
  rw [List.any_eq_true]
  constructor
  · rintro ⟨start, hstart, hlower⟩
    have hprefix := List.isPrefixOf_iff_prefix.mp hlower
    rw [toList_asciiLower, htrim] at hprefix
    obtain ⟨more, hmore⟩ := hprefix
    obtain ⟨x, z, htrimmed, hx, -⟩ := List.map_eq_append_iff.mp hmore.symm
    obtain ⟨tail, hdrop, -⟩ := dropBlankTail_append (w.dropWhile isBlank)
    refine ⟨w.takeWhile isBlank, x, z ++ tail, ?_, List.all_eq_true.mp List.all_takeWhile, start,
      hstart, hx⟩
    rw [← List.append_assoc x, ← htrimmed, ← hdrop, List.takeWhile_append_dropWhile]
  · rintro ⟨b, x, y, rfl, hb, hx⟩
    obtain ⟨⟨c, z, rfl, hc⟩, hlast⟩ := hx.solid
    obtain ⟨start, hstart, hmap⟩ := hx
    refine ⟨start, hstart, List.isPrefixOf_iff_prefix.mpr ?_⟩
    rw [toList_asciiLower, htrim, List.dropWhile_append_of_pos hb, List.cons_append,
      List.dropWhile_cons_of_neg (by simp [hc]), ← hmap]
    exact (prefix_dropBlankTail ⟨y, rfl⟩ hlast).map Char.toLower

/-- An external reference is external up to its first quote. -/
theorem isExternal_takeWhile (h : isExternal (String.ofList w) = true) :
    isExternal (String.ofList (w.takeWhile fun c => !isQuote c)) = true := by
  rw [isExternal_iff] at h ⊢
  rcases h with hblank | ⟨b, x, y, rfl, hb, hx⟩
  · exact .inl fun c hc => hblank c ((List.takeWhile_prefix _).subset hc)
  · refine .inr ⟨b, x, y.takeWhile fun c => !isQuote c, ?_, hb, hx⟩
    rw [List.takeWhile_append_of_pos fun c hc => not_isQuote_of_isBlank (hb c hc),
      List.takeWhile_append_of_pos hx.forall_not_isQuote]

/-- It does not begin with a quote. -/
theorem takeWhile_ne_nil_of_isExternal (h : isExternal (String.ofList w) = true) (hw : w ≠ []) :
    (w.takeWhile fun c => !isQuote c) ≠ [] := by
  obtain ⟨c, s, rfl⟩ := List.exists_cons_of_ne_nil hw
  suffices hc : (!isQuote c) = true by
    rw [List.takeWhile_cons_of_pos (p := fun c => !isQuote c) hc]
    exact List.cons_ne_nil _ _
  rcases isExternal_iff.mp h with hblank | ⟨b, x, y, hsplit, hb, hx⟩
  · exact not_isQuote_of_isBlank (hblank c List.mem_cons_self)
  · cases b with
    | nil =>
      obtain ⟨⟨d, z, rfl, -⟩, -⟩ := hx.solid
      obtain ⟨rfl, -⟩ := List.cons.inj hsplit
      exact hx.forall_not_isQuote c List.mem_cons_self
    | cons d b =>
      obtain ⟨rfl, -⟩ := List.cons.inj hsplit
      exact not_isQuote_of_isBlank (hb c List.mem_cons_self)

end Workbench.Markup
