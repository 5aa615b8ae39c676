import Workbench.Proofs.Pattern.Captures

/-!
# Patterns up to a delimiter

A pattern that reads no `c`, followed by a `c`, can be read in one way only: up to the first `c`. So
its preferred reading is found without going through its parts (`prefers_delimited`).
-/

namespace Workbench.Pattern

variable {p q : Pattern} {last : Option Char} {u v w rest : List Char} {c : Char}
  {caps caps' : List Capture}

/-- No class in the pattern holds the character. -/
def avoids (c : Char) : Pattern → Bool
  | char ok => !ok c
  | many ok => !ok c
  | few ok => !ok c
  | seq p q => avoids c p && avoids c q
  | either p q => avoids c p && avoids c q
  | group _ p => avoids c p
  | _ => true

theorem Reads.not_mem (hp : avoids c p = true) (h : p.Reads last w rest) : c ∉ w := by
  have hclass {ok : Char → Bool} {w : List Char} (hn : (!ok c) = true) (hw : ∀ d ∈ w, ok d = true) :
      c ∉ w := fun hm => by simp [hw c hm] at hn
  induction p generalizing last w rest with
  | char ok =>
    obtain ⟨d, hd, rfl⟩ := h
    exact hclass hp fun e he => List.mem_singleton.mp he ▸ hd
  | many ok => exact hclass hp h
  | few ok => exact hclass hp h
  | seq p q ihp ihq =>
    obtain ⟨hp, hq⟩ := Bool.and_eq_true _ _ ▸ hp
    obtain ⟨u, v, rfl, hu, hv⟩ := h
    exact fun hm => (List.mem_append.mp hm).elim (ihp hp hu) (ihq hq hv)
  | either p q ihp ihq =>
    obtain ⟨hp, hq⟩ := Bool.and_eq_true _ _ ▸ hp
    exact h.elim (ihp hp) (ihq hq)
  | group n p ih => exact ih hp h
  | empty => exact h ▸ List.not_mem_nil
  | _ => exact h.1 ▸ List.not_mem_nil

/-- What stands before the first `c` is told apart. -/
theorem eq_of_append_cons {x y : List Char} (hu : c ∉ u) (hv : c ∉ v)
    (h : u ++ c :: x = v ++ c :: y) : u = v := by
  have htake {w z : List Char} (hw : c ∉ w) : (w ++ c :: z).takeWhile (· != c) = w := by
    have hall : ∀ d ∈ w, (d != c) = true := fun d hd => bne_iff_ne.mpr fun he => hw (he ▸ hd)
    exact takeWhile_run hall (stops_cons.mpr (by simp))
  rw [← htake (z := x) hu, h, htake hv]

/-- What can be read in one way only is the preferred reading. -/
theorem Prefers.of_unique (hp : groupless p = true) (h : p.Reads last w rest)
    (hu : ∀ w' rest', w ++ rest = w' ++ rest' → p.Reads last w' rest' → w' = w) :
    p.Prefers last w rest [] := by
  intro cur hl hr
  obtain ⟨e', he', -⟩ := exists_mem_ends p h hl hr
  obtain ⟨e, l, hel⟩ := List.exists_cons_of_ne_nil (List.ne_nil_of_mem he')
  have he : e ∈ p.ends cur := hel ▸ List.mem_cons_self
  obtain ⟨w', ⟨hrest, htaken, hlast⟩, hw'⟩ := reads_of_mem_ends p he
  rw [hr] at hrest
  obtain rfl := hu w' e.rest hrest (hl ▸ hw')
  obtain rfl := List.append_cancel_left hrest
  rw [hel, List.head?_cons, List.nil_append, ← htaken, ← hl, ← hlast, ← captures_of_mem_ends hp he]

/-! ## The last of several patterns -/

theorem ends_all_concat (l : List Pattern) (q : Pattern) :
    ∀ cur, (all (l ++ [q])).ends cur = (seq (all l) q).ends cur := by
  induction l with
  | nil =>
    intro cur
    simp [all, ends]
  | cons p l ih =>
    intro cur
    cases l with
    | nil => rfl
    | cons p' l =>
      show ((p.ends cur).flatMap fun mid => (all (p' :: l ++ [q])).ends mid) =
        ((p.ends cur).flatMap (all (p' :: l)).ends).flatMap q.ends
      rw [List.flatMap_assoc]
      exact List.flatMap_congr fun mid _ => ih mid

theorem Prefers.all_concat {l : List Pattern} (hl : (all l).Prefers last u (v ++ rest) caps)
    (hq : q.Prefers (u.getLast?.or last) v rest caps') :
    (all (l ++ [q])).Prefers last (u ++ v) rest (caps' ++ caps) := fun cur hlast hrest =>
  ends_all_concat l q cur ▸ hl.seq hq cur hlast hrest

/-- Patterns that read no `c` are read up to the first `c`. -/
theorem prefers_delimited {l : List Pattern} (hg : groupless (all l) = true)
    (hc : avoids c (all l) = true) (h : (all l).Reads last u (c :: rest)) :
    (all (l ++ [this c])).Prefers last (u ++ [c]) rest [] := by
  have hseq : (seq (all l) (this c)).Prefers last (u ++ [c]) rest [] := by
    refine .of_unique (Bool.and_eq_true _ _ ▸ ⟨hg, rfl⟩) ⟨u, [c], rfl, h, c, beq_self_eq_true c, rfl⟩ ?_
    rintro _ rest' hsplit ⟨u', _, rfl, hu', d, hd, rfl⟩
    obtain rfl := eq_of_beq hd
    rw [List.append_assoc, List.append_assoc] at hsplit
    rw [eq_of_append_cons (h.not_mem hc) (hu'.not_mem hc) hsplit]
  exact fun cur hlast hrest => ends_all_concat l (this c) cur ▸ hseq cur hlast hrest

end Workbench.Pattern
