import Workbench.Proofs.Pattern.Captures
import Workbench.Proofs.Pattern.Seam
import Workbench.Script.Link

/-!
# Import and export statements that are left over

The rules go over a module one after the other, each from left to right and once. So a statement can
be left over: when two statements stand on one line, the first is taken out and only then does the
second one stand at the start of a line. `body_twoImports` is such a module.

* `body_occursIn_iff`: this is the only way. A rule can read a piece of the finished body exactly
  when it can read one across a seam, that is one whose characters did not all stand together, or
  not behind the same character, in the module.
* The rules change a finished body if and only if one of them can read a piece of it.
-/

namespace Workbench.Script

open Pattern

/-- The rules that are applied to a module, in order. -/
def passes : List Rule := importRemovals ++ declarations ++ exportRemovals

theorem declareAll_snd (rules : List Rule) :
    ∀ text, (declareAll rules text).2 = applyAll rules text := by
  induction rules with
  | nil => intro text; rfl
  | cons r rules ih => intro text; exact ih (r.apply text)

theorem body_eq (m : Source) : m.body = applyAll passes m.text := by
  rw [Source.body, declareAll_snd, passes, applyAll, applyAll, applyAll, applyAll,
    List.foldl_append, List.foldl_append]

theorem passes_shape : ∀ r ∈ passes,
    r.pattern.takesSome = true ∧ r.pattern.selfContained = true := by
  decide

/-! ## Every rule makes a text shorter -/

/-- A rule that reads `export` and keeps what it reads before and behind it: `q` reads the name as
group 3, and `k` more characters at least. -/
theorem shortens_declaration {g q : Pattern} {template : Template} {k : Nat}
    (hg : groupless g = true)
    (hq : ∀ {cur e}, e ∈ q.ends cur → ∃ start n, e.captures = ⟨3, start, n⟩ :: cur.captures ∧
      cur.taken + k + n ≤ e.taken)
    (ht : ∀ h, (template.expand h).length ≤
      (h.groupText 1).length + (h.groupText 2).length + k + (h.groupText 3).length) :
    Rule.Shortens
      ⟨all [lineStart, group 1 indent, text "export", separator, group 2 g, q], template⟩ := by
  intro last s h hr
  obtain ⟨e, he, hs, -, hc⟩ := readAt_eq_some hr
  have he := List.mem_of_mem_head? he
  obtain ⟨w, hw, -⟩ := reads_of_mem_ends _ he
  have hlen : h.text.length = e.taken := by
    have := congrArg List.length (hs.symm.trans hw.1)
    have := hw.2.1
    simp only [List.length_append] at *
    omega
  -- The places behind the line start, the blanks, `export`, more blanks and the words of group 2.
  obtain ⟨c₁, h₁, he⟩ := List.mem_flatMap.mp he
  obtain ⟨c₂, h₂, he⟩ := List.mem_flatMap.mp he
  obtain ⟨c₃, h₃, he⟩ := List.mem_flatMap.mp he
  obtain ⟨c₄, h₄, he⟩ := List.mem_flatMap.mp he
  obtain ⟨c₅, h₅, he⟩ := List.mem_flatMap.mp he
  obtain ⟨d₂, i₂, rfl⟩ := List.mem_map.mp h₂
  obtain ⟨d₅, i₅, rfl⟩ := List.mem_map.mp h₅
  obtain ⟨start, n, hcap, hle⟩ := hq he
  have hcaps : h.captures = [⟨3, start, n⟩, ⟨2, c₄.rest, d₅.taken - c₄.taken⟩,
      ⟨1, c₁.rest, d₂.taken - c₁.taken⟩] := by
    have hx : groupless (text "export") = true := by decide
    rw [hc, hcap, captures_close, captures_of_mem_ends hg i₅, captures_of_mem_ends rfl h₄,
      captures_of_mem_ends hx h₃, captures_close, captures_of_mem_ends rfl i₂,
      captures_of_mem_ends rfl h₁]
  have hg₁ : (h.groupText 1).length ≤ d₂.taken - c₁.taken :=
    length_groupText_le (c := ⟨1, c₁.rest, d₂.taken - c₁.taken⟩) (by decide) (by rw [hcaps]; rfl)
  have hg₂ : (h.groupText 2).length ≤ d₅.taken - c₄.taken :=
    length_groupText_le (c := ⟨2, c₄.rest, d₅.taken - c₄.taken⟩) (by decide) (by rw [hcaps]; rfl)
  have hg₃ : (h.groupText 3).length ≤ n :=
    length_groupText_le (c := ⟨3, start, n⟩) (by decide) (by rw [hcaps]; rfl)
  have t₃ : c₃.taken = d₂.taken + 6 := taken_of_mem_ends_text h₃
  have t₄ : c₃.taken ≤ c₄.taken := taken_le_of_mem_ends h₄
  have t₅ : c₄.taken ≤ d₅.taken := taken_le_of_mem_ends i₅
  have te : d₅.taken + k + n ≤ e.taken := hle
  have hx : (template.expand h).length ≤
    (h.groupText 1).length + (h.groupText 2).length + k + (h.groupText 3).length := ht h
  show (template.expand h).length < h.text.length
  omega

theorem passes_shorten : ∀ r ∈ passes, r.Shortens := by
  have hdel (p : Pattern) (hp : p.takesSome = true) : (Rule.deleting p).Shortens :=
    fun last s h hr => List.length_pos_iff.mpr ((reads_of_readAt hr).2.ne_nil hp)
  have hname {cur e : Cursor} (he : e ∈ (group 3 identifier).ends cur) :
      ∃ start n, e.captures = ⟨3, start, n⟩ :: cur.captures ∧ cur.taken + 0 + n ≤ e.taken := by
    obtain ⟨d, hd, rfl⟩ := List.mem_map.mp he
    have := taken_le_of_mem_ends hd
    refine ⟨cur.rest, d.taken - cur.taken, ?_, ?_⟩
    · rw [captures_close, captures_of_mem_ends rfl hd]
    · rw [taken_close]
      omega
  have hfun : exportedFunction.Shortens := by
    refine shortens_declaration (by decide) hname fun h => ?_
    simp [Template.expand]
    omega
  have hclass : exportedClass.Shortens := by
    refine shortens_declaration (by decide) hname fun h => ?_
    simp [Template.expand]
    omega
  have hbinding : exportedBinding.Shortens := by
    refine shortens_declaration (q := seq separator (group 3 identifier)) (k := 1)
      (by decide) (fun {cur e} he => ?_) fun h => ?_
    · obtain ⟨mid, hm, he⟩ := List.mem_flatMap.mp he
      obtain ⟨start, n, hc, hle⟩ := hname he
      have hlt := taken_lt_of_mem_ends (p := separator) rfl hm
      exact ⟨start, n, by rw [hc, captures_of_mem_ends rfl hm], by omega⟩
    · simp [Template.expand]
      omega
  intro r hr
  have hp := (passes_shape r hr).1
  simp only [passes, importRemovals, declarations, exportRemovals, List.cons_append,
    List.nil_append, List.mem_cons, List.not_mem_nil, or_false] at hr
  rcases hr with rfl | rfl | rfl | rfl | rfl | rfl | rfl | rfl | rfl | rfl
  · exact hdel _ hp
  · exact hdel _ hp
  · exact hdel _ hp
  · exact hdel _ hp
  · exact hfun
  · exact hclass
  · exact hbinding
  · exact hdel _ hp
  · exact hdel _ hp
  · exact hdel _ hp

/-! ## What is left over -/

/-- The body of a module in which each character is marked that is not in place: a rule wrote it, or
a rule wrote or took away something directly before it. -/
def Source.trace (m : Source) : List Placed :=
  Rule.followAll passes (Placed.original m.text.toList)

/-- A rule that is applied to a module can read a piece of its finished body exactly when it can read
one that crosses a seam between pieces of the module. The rules change the finished body, as a next
time would show, exactly when there is such a piece. -/
theorem body_occursIn_iff (m : Source) :
    (∀ r ∈ passes, (r.occursIn m.body = true ↔ Placed.CrossesSeam r.pattern m.trace)) ∧
    (applyAll passes m.body = m.body ↔
      ∀ r ∈ passes, ¬ Placed.CrossesSeam r.pattern m.trace) := by
  have ho : ∀ r ∈ passes, (r.occursIn m.body = true ↔ Placed.CrossesSeam r.pattern m.trace) := by
    intro r hr
    rw [body_eq]
    exact Rule.occursIn_foldl_apply_iff passes_shape hr m.text
  refine ⟨ho, ?_⟩
  rw [applyAll, Rule.foldl_apply_eq_self_iff (fun r hr => (passes_shape r hr).1) passes_shorten]
  exact forall₂_congr fun r hr => by rw [← ho r hr, Bool.not_eq_true]

def twoImports : Source := ⟨"m.mjs", "import a from 'a'; import b from 'b';\n"⟩

theorem body_twoImports : twoImports.body = "import b from 'b';\n" := by decide +kernel

/-- A rule that is applied to a module can be able to read a piece of its finished body. -/
theorem not_body_occursIn_eq_false :
    ¬ ∀ m : Source, ∀ r ∈ passes, r.occursIn m.body = false := by
  intro h
  have ho := h twoImports defaultImport (by simp [passes, importRemovals])
  rw [body_twoImports] at ho
  revert ho
  decide

end Workbench.Script
