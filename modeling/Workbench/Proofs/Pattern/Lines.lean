import Workbench.Proofs.Pattern.Cut
import Workbench.Proofs.Text.Classes
import Workbench.Proofs.Text.Occurrence

/-!
# Patterns in whole lines

A pattern sees more of a text than what it reads: the start of a line and the edge of a word depend
on the characters beside a place, and the end of the text on all that follows. Where a block of
whole lines stands in a longer text (`LinesIn`), a newline may stand beside it where there was
nothing before, and neither the start of a line nor the edge of a word can tell the two apart.

* `Reads.of_keeps`: what is read at one place can be read at another one that keeps the anchors on
  the way, unless the pattern asks for the end of the text.
* `occursIn_of_linesIn`: a pattern that can read a piece of a block can read one of every text in
  which the block stands as whole lines.
-/

namespace Workbench.Text

/-- The block stands in the text as whole lines: it begins where a line of the text begins, and it
ends where one ends. -/
def LinesIn (block text : String) : Prop :=
  ∃ before behind : String, text = before ++ block ++ behind ∧
    (before = "" ∨ EndsLine before) ∧
    (behind = "" ∨ EndsLine block ∨ behind.toList.head? = some '\n')

theorem linesIn_between (before block behind : String) :
    LinesIn block (before ++ "\n" ++ block ++ "\n" ++ behind) := by
  have hnext : ("\n" ++ behind).toList.head? = some '\n' := by
    rw [String.toList_append]
    rfl
  exact ⟨before ++ "\n", "\n" ++ behind, String.append_assoc, .inr (.append before rfl),
    .inr (.inr hnext)⟩

end Workbench.Text

namespace Workbench.Pattern

open Text

variable {p : Pattern} {last last' : Option Char} {w rest rest' : List Char}

/-- The pattern never asks for the end of the text. -/
def endless : Pattern → Bool
  | seq p q => endless p && endless q
  | either p q => endless p && endless q
  | group _ p => endless p
  | textEnd => false
  | _ => true

/-- Where a line starts or a word has an edge at the one place, with `last` before it and `rest`
behind it, there it is so at the other place, too. -/
structure Keeps (last : Option Char) (rest : List Char) (last' : Option Char) (rest' : List Char) :
    Prop where
  lineStart : lineStart.Reads last [] rest → lineStart.Reads last' [] rest'
  wordEdge : wordEdge.Reads last [] rest → wordEdge.Reads last' [] rest'

/-- A reading is carried to another place if every place on its way keeps the anchors. -/
theorem Reads.of_keeps (hp : p.endless = true) (h : p.Reads last w rest)
    (hk : ∀ u v, w = u ++ v →
      Keeps (u.getLast?.or last) (v ++ rest) (u.getLast?.or last') (v ++ rest')) :
    p.Reads last' w rest' := by
  induction p generalizing last last' w rest rest' with
  | seq p q ihp ihq =>
    obtain ⟨hp, hq⟩ := Bool.and_eq_true _ _ ▸ hp
    obtain ⟨u, v, rfl, hu, hv⟩ := h
    refine ⟨u, v, rfl, ihp hp hu fun a b hab => ?_, ihq hq hv fun a b hab => ?_⟩
    · have := hk a (b ++ v) (by rw [hab, List.append_assoc])
      rwa [List.append_assoc, List.append_assoc] at this
    · have := hk (u ++ a) b (by rw [hab, List.append_assoc])
      rwa [getLast?_append_or, getLast?_append_or] at this
  | either p q ihp ihq =>
    obtain ⟨hp, hq⟩ := Bool.and_eq_true _ _ ▸ hp
    exact h.imp (ihp hp · hk) (ihq hq · hk)
  | group n p ih => exact ih hp h hk
  | lineStart =>
    obtain rfl := h.1
    exact (hk [] [] rfl).lineStart h
  | textEnd => exact absurd hp Bool.false_ne_true
  | wordEdge =>
    obtain rfl := h.1
    exact (hk [] [] rfl).wordEdge h
  | _ => exact h

/-! ## Whole lines -/

variable {a b before block behind : List Char}

/-- Every place of a block of whole lines keeps its anchors in the longer text. -/
theorem keeps_of_lines (hbefore : before.getLast? = none ∨ before.getLast? = some '\n')
    (hbehind : block.getLast? = some '\n' ∨ behind.head? = none ∨ behind.head? = some '\n')
    (h : block = a ++ b) :
    Keeps a.getLast? b (a.getLast?.or before.getLast?) (b ++ behind) := by
  have hlast : (a.getLast?.or before.getLast?).any isWord = a.getLast?.any isWord := by
    cases a.getLast? with
    | none => exact any_isWord_eq_false hbefore
    | some c => rfl
  refine ⟨fun hr => ⟨rfl, ?_⟩, fun hr => ⟨rfl, ?_⟩⟩
  · have hstart := hr.2
    cases ha : a.getLast? with
    | none => exact hbefore
    | some c => rwa [ha] at hstart
  · rw [hlast]
    cases b with
    | cons c b => exact hr.2
    | nil =>
      -- The edge is that of a word at the end of the block, which therefore ends with no newline.
      obtain rfl : block = a := h.trans (List.append_nil a)
      rcases hbehind with hend | hnext
      · exact absurd (any_isWord_eq_false (.inr hend)) hr.2
      · rw [List.nil_append, any_isWord_eq_false hnext]
        exact hr.2

/-- A pattern that can read a piece of the block can read one of the text. -/
theorem occursIn_of_linesIn (ht : p.takesSome = true) (hp : p.endless = true) {block text : String}
    (h : LinesIn block text) (ho : p.occursIn block = true) : p.occursIn text = true := by
  obtain ⟨before, behind, rfl, hbefore, hbehind⟩ := h
  obtain ⟨a, w, b, hs, hr⟩ := (occursIn_iff ht).mp ho
  have hbefore' : before.toList.getLast? = none ∨ before.toList.getLast? = some '\n' :=
    hbefore.imp_left fun (he : before = "") => he ▸ rfl
  have hbehind' : block.toList.getLast? = some '\n' ∨
      behind.toList.head? = none ∨ behind.toList.head? = some '\n' :=
    or_left_comm.mp (hbehind.imp_left fun (he : behind = "") => he ▸ rfl)
  refine (occursIn_iff ht).mpr ⟨before.toList ++ a, w, b ++ behind.toList, ?_, ?_⟩
  · rw [String.toList_append, String.toList_append, hs]
    simp only [List.append_assoc]
  · refine hr.of_keeps hp fun u v hw => ?_
    have hs' : block.toList = (a ++ u) ++ (v ++ b) := by
      rw [hs, hw]
      simp only [List.append_assoc]
    have hk := keeps_of_lines hbefore' hbehind' hs'
    rw [List.getLast?_append, Option.or_assoc, List.append_assoc] at hk
    rwa [List.getLast?_append]

end Workbench.Pattern
