import Workbench.Proofs.Script.Leftover
import Workbench.Proofs.Script.LineShape

/-!
# The names that linking finds

A name is what a group of a rule read, and so a text of the pattern in that group. In the rules that
find names this pattern is the one for identifiers. So every name is an identifier, and the line that
puts it on the global object is a single line (`isLine_globalLine`).
-/

namespace Workbench.Script

open Pattern

variable {n : Nat} {last : Option Char} {s w rest : List Char}

/-! ## Identifiers -/

theorem exists_identifier_of_reads (h : identifier.Reads last w rest) :
    ∃ x : Identifier, w = x.chars := by
  obtain ⟨u, v, rfl, ⟨c, hc, rfl⟩, hv⟩ := h
  exact ⟨⟨c, hc, v, hv⟩, rfl⟩

theorem groupless_text (s : String) : groupless (text s) = true := by
  rw [text]
  induction s.toList with
  | nil => rfl
  | cons c l ih =>
    cases l with
    | nil => rfl
    | cons d l => exact ih

@[simp] theorem bodies_text (n : Nat) (s : String) : bodies n (text s) = [] :=
  bodies_eq_nil (groupless_text s)

/-- The rules that find names, each with the group that reads them. -/
theorem bodies_declarations : ∀ r ∈ declarations, bodies 3 r.pattern = [identifier] := by
  simp [declarations, exportedFunction, exportedClass, exportedBinding, all, anyOf, bodies,
    Pattern.optional, separator, some1, indent, gap, this, identifier]

theorem bodies_declaredFunction : bodies 1 declaredFunction.pattern = [identifier] := by
  simp [declaredFunction, Rule.deleting, all, bodies, Pattern.optional, separator, some1, indent,
    gap, this, identifier]

theorem exists_identifier_of_mem_collect {r : Rule} (hp : r.pattern.takesSome = true) (hn : n ≠ 0)
    (hb : bodies n r.pattern = [identifier]) {s name : String} (h : name ∈ r.collect n s) :
    ∃ x : Identifier, name.toList = x.chars := by
  obtain ⟨q, hq, last, rest, hr⟩ := reads_of_mem_collect hp hn h
  rw [hb] at hq
  obtain rfl := List.mem_singleton.mp hq
  exact exists_identifier_of_reads hr

theorem exists_collect_of_mem_declareAll {rules : List Rule} {name : String} : ∀ {text : String},
    name ∈ (declareAll rules text).1 → ∃ r ∈ rules, ∃ s, name ∈ r.collect 3 s := by
  induction rules with
  | nil => exact fun h => absurd h List.not_mem_nil
  | cons r rules ih =>
    intro text h
    rcases List.mem_append.mp h with h | h
    · exact ⟨r, List.mem_cons_self, text, h⟩
    · obtain ⟨r', hr, s, hs⟩ := ih h
      exact ⟨r', List.mem_cons_of_mem r hr, s, hs⟩

/-- Every name that a module declares for others is an identifier. -/
theorem exists_identifier_of_mem_names {m : Source} {name : String} (h : name ∈ m.names) :
    ∃ x : Identifier, name.toList = x.chars := by
  rcases List.mem_append.mp h with h | h
  · obtain ⟨r, hr, s, hs⟩ := exists_collect_of_mem_declareAll h
    have hp : r ∈ passes := List.mem_append_left _ (List.mem_append_right _ hr)
    exact exists_identifier_of_mem_collect (passes_shape r hp).1
      (Nat.succ_ne_zero 2) (bodies_declarations r hr) hs
  · exact exists_identifier_of_mem_collect (by decide) Nat.one_ne_zero
      bodies_declaredFunction h

theorem isLine_globalLine {name : String} (x : Identifier) (h : name.toList = x.chars) :
    IsLine (globalLine name).toList := by
  have hx : '\n' ∉ name.toList := h ▸ x.newline_not_mem
  have hend : IsLine "; \x7d\n".toList := ⟨"; \x7d".toList, by decide, by decide⟩
  have hset : IsLine (name.toList ++ (" = ".toList ++ (name.toList ++ "; \x7d\n".toList))) :=
    .append hx (.append (by decide) (.append hx hend))
  unfold globalLine
  simp only [String.toList_append, List.append_assoc]
  exact .append (by decide) (.append hx (.append (by decide) hset))

end Workbench.Script
