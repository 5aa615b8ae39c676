import Workbench.Proofs.Pattern.Cut
import Workbench.Proofs.Text.Occurrence

/-!
# Occurrences in a rewritten text

A piece of text is fenced against a marker when its first and its last character keep the marker
from running across its ends. If the readings of a pattern are replaced by fenced pieces, then the
marker is found in the gaps between them and inside each of them, and nowhere else
(`exists_occurrences_replace`): what stands in the gaps does not depend on what is written.
-/

namespace Workbench.Text

variable {marker s : List Char}

/-- The marker does not run across either end of the text. -/
def Fenced (marker s : List Char) : Prop :=
  ∃ c d, s.head? = some c ∧ c.toLower ∉ marker.tail ∧ s.getLast? = some d ∧ d.toLower ∉ marker

theorem occurrences_fenced (h : Fenced marker s) (u v : List Char) :
    occurrences marker (u ++ (s ++ v)) =
      occurrences marker u + (occurrences marker s + occurrences marker v) := by
  obtain ⟨c, d, hc, hct, hd, hdm⟩ := h
  have hu : Apart marker u (s ++ v) := by
    refine .inr fun e he => ?_
    rw [List.head?_append, hc, Option.some_or] at he
    exact Option.some.inj he ▸ hct
  have hs : Apart marker s v := .inl fun e he => Option.some.inj (hd.symm.trans he) ▸ hdm
  rw [occurrences_append hu, occurrences_append hs]

end Workbench.Text

namespace Workbench.Pattern

open Text

variable {marker : List Char}

/-- The number of occurrences outside the pieces that are written is the same whatever they are. -/
theorem exists_occurrences_write (marker : List Char) (ps : List Piece) : ∀ w, ∃ n,
    ∀ f : Hit → List Char, (∀ h, .hit h ∈ ps → Fenced marker (f h)) →
      occurrences marker (w ++ ps.flatMap (Piece.write f)) =
        n + ((ps.filterMap Piece.hit?).map fun h => occurrences marker (f h)).sum := by
  induction ps with
  | nil => exact fun w => ⟨occurrences marker w, fun f _ => by simp⟩
  | cons piece ps ih =>
    intro w
    cases piece with
    | gap c =>
      obtain ⟨n, hn⟩ := ih (w ++ [c])
      refine ⟨n, fun f hf => ?_⟩
      rw [List.flatMap_cons, Piece.write, ← List.append_assoc,
        hn f fun h hm => hf h (List.mem_cons_of_mem _ hm)]
      rfl
    | hit h =>
      obtain ⟨n, hn⟩ := ih []
      refine ⟨occurrences marker w + n, fun f hf => ?_⟩
      have hrest := hn f fun h' hm => hf h' (List.mem_cons_of_mem _ hm)
      rw [List.nil_append] at hrest
      rw [List.flatMap_cons, Piece.write, occurrences_fenced (hf h List.mem_cons_self), hrest]
      simp only [List.filterMap_cons, Piece.hit?, List.map_cons, List.sum_cons]
      omega

theorem exists_occurrences_replace (marker : List Char) (p : Pattern) (s : String) : ∃ n,
    ∀ f : Hit → List Char, (∀ h ∈ p.hits s, Fenced marker (f h)) →
      occurrences marker (p.replace f s).toList =
        n + ((p.hits s).map fun h => occurrences marker (f h)).sum := by
  obtain ⟨n, hn⟩ := exists_occurrences_write marker (p.cut s.toList) []
  refine ⟨n, fun f hf => ?_⟩
  rw [toList_replace]
  exact hn f fun h hm => hf h (mem_hits.mpr hm)

/-- Writing every reading as it is gives the text back. -/
theorem replace_text (p : Pattern) (s : String) : p.replace Hit.text s = s := by
  have hw : Piece.write Hit.text = Piece.text := by
    funext piece
    cases piece <;> rfl
  rw [← String.toList_inj, toList_replace, hw, flatMap_piece_cut]

end Workbench.Pattern
