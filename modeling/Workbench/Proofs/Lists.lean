import Mathlib.Algebra.Ring.Nat
import Mathlib.Data.List.Basic

/-!
# Lists

Facts about lists that more than one part of the workbench uses: where a list goes up to the first
element of a kind, which elements a partial map leaves, with sums over them, and what is left of a list
when only the first of equal elements is kept.
-/

namespace Workbench

variable {α β : Type}

/-! ## Up to the first of its kind -/

section First

variable {w x y : List α} {c : α}

/-- A beginning that ends with an element ends before a list without this element. -/
theorem prefix_of_not_mem (h : w ++ [c] <+: x ++ y) (hc : c ∉ y) : w ++ [c] <+: x := by
  refine (List.prefix_or_prefix_of_prefix h (List.prefix_append x y)).elim id fun hx => ?_
  rcases List.prefix_concat_iff.mp hx with rfl | ⟨z, rfl⟩
  · exact List.prefix_rfl
  · rw [List.append_assoc, List.prefix_append_right_inj] at h
    exact absurd (h.subset (by simp)) hc

/-- A beginning that ends with the first element of its kind ends where this one stands. -/
theorem prefix_of_first (h : w ++ [c] <+: x ++ [c] ++ y) (hc : c ∉ w) : w ++ [c] <+: x ++ [c] := by
  refine (List.prefix_or_prefix_of_prefix h (List.prefix_append _ y)).elim id fun hx => ?_
  rcases List.prefix_concat_iff.mp hx with hx | hx
  · exact hx ▸ List.prefix_rfl
  · exact absurd (hx.subset (by simp)) hc

theorem exists_first {ok : α → Bool} {l : List α} (h : ¬ ∀ a ∈ l, ok a = false) :
    ∃ before a after, l = before ++ a :: after ∧ ok a = true ∧ ∀ b ∈ before, ok b = false := by
  have hsome : (l.find? ok).isSome = true := by
    rw [List.find?_isSome]
    simpa using h
  obtain ⟨a, ha⟩ := Option.isSome_iff_exists.mp hsome
  obtain ⟨hok, before, after, hl, hbefore⟩ := List.find?_eq_some_iff_append.mp ha
  exact ⟨before, a, after, hl, hok, fun b hb => by simpa using hbefore b hb⟩

end First

/-! ## Sums over the elements that are mapped -/

section Sums

variable {g : α → Option β} {a b : α → Nat} {c : β → Nat}

/-- The elements that `g` maps to something, each with what it is mapped to. -/
def paired (g : α → Option β) (l : List α) : List (α × β) :=
  l.filterMap fun x => (g x).map (x, ·)

theorem sum_paired_le (l : List α) :
    ((paired g l).map fun r => b r.1).sum ≤ (l.map b).sum := by
  induction l with
  | nil => exact Nat.le_refl 0
  | cons x l ih =>
    cases hx : g x with
    | none =>
      simp only [paired, List.filterMap_cons, hx, Option.map_none, List.map_cons, List.sum_cons]
      exact Nat.le_add_left_of_le ih
    | some y =>
      simp only [paired, List.filterMap_cons, hx, Option.map_some, List.map_cons, List.sum_cons]
      exact Nat.add_le_add_left ih _

theorem sum_add_sum_paired (hn : ∀ x, g x = none → a x = b x)
    (hs : ∀ x y, g x = some y → a x = c y) (l : List α) :
    (l.map a).sum + ((paired g l).map fun r => b r.1).sum =
      (l.map b).sum + ((paired g l).map fun r => c r.2).sum := by
  induction l with
  | nil => rfl
  | cons x l ih =>
    unfold paired at ih ⊢
    cases hx : g x with
    | none =>
      simp only [List.filterMap_cons, hx, Option.map_none, List.map_cons, List.sum_cons, hn x hx]
      omega
    | some y =>
      simp only [List.filterMap_cons, hx, Option.map_some, List.map_cons, List.sum_cons, hs x y hx]
      omega

end Sums

/-! ## The first of equal elements -/

section Duplicates

variable [BEq α] [LawfulBEq α]

theorem filter_eraseDups (ok : α → Bool) (l : List α) :
    (l.filter ok).eraseDups = l.eraseDups.filter ok := by
  match l with
  | [] => rfl
  | a :: l =>
    have ih := filter_eraseDups ok (l.filter fun b => !b == a)
    rw [List.eraseDups_cons]
    by_cases ha : ok a = true
    · rw [List.filter_cons_of_pos ha, List.filter_cons_of_pos ha, List.eraseDups_cons, ← ih,
        List.filter_comm]
    · -- An element that is dropped leaves nothing to drop behind it.
      have hmem : a ∉ l.filter ok := fun h => ha (List.mem_filter.mp h).2
      have hsame : ((l.filter ok).filter fun b => !b == a) = l.filter ok :=
        List.filter_bne_eq_self_of_not_mem hmem
      rw [List.filter_cons_of_neg ha, List.filter_cons_of_neg ha, ← ih, List.filter_comm, hsame]
termination_by l.length
decreasing_by exact Nat.lt_succ_of_le (List.length_filter_le _ _)

theorem nodup_eraseDups (l : List α) : l.eraseDups.Nodup := by
  match l with
  | [] => exact List.nodup_nil
  | a :: l =>
    rw [List.eraseDups_cons]
    refine List.nodup_cons.mpr ⟨fun ha => ?_, nodup_eraseDups _⟩
    have := (List.mem_filter.mp (List.mem_eraseDups.mp ha)).2
    simp at this
termination_by l.length
decreasing_by exact Nat.lt_succ_of_le (List.length_filter_le _ _)

theorem eraseDups_eq_self {l : List α} (h : l.Nodup) : l.eraseDups = l := by
  induction l with
  | nil => rfl
  | cons a l ih =>
    obtain ⟨ha, h⟩ := List.nodup_cons.mp h
    have hsame : (l.filter fun b => !b == a) = l := List.filter_bne_eq_self_of_not_mem ha
    rw [List.eraseDups_cons, hsame, ih h]

end Duplicates

end Workbench
