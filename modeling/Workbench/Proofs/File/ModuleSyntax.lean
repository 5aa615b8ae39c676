import Workbench.Proofs.File.Recognition
import Workbench.Proofs.Script.Leftover
import Workbench.Proofs.Script.StatementKind

/-!
# Module syntax and the statements that linking takes out

Whether a script is a module is told from a mark in its text, and which statements are taken out of a
module is told by rules of their own. The two agree in one direction: wherever a rule reads a
statement, there is a mark within it (`covers_rule`). So a text without a mark is left alone by every
rule, and no classic script holds a statement that linking would have taken out of a module
(`rules_need_mark`).

A mark may be one character shorter or begin later than the statement: behind `import` and `export`
it asks for the next character only, and in front of `export {`, `export *` and `export default` it
asks for the edge of a word and not for the start of a line.
-/

namespace Workbench

namespace Pattern

variable {m p q : Pattern} {ok : Char → Bool}

/-- Wherever `p` reads a text, `m` can read a piece of it. -/
def Covers (m p : Pattern) : Prop :=
  ∀ last w rest, p.Reads last w rest →
    ∃ a u v, w = a ++ (u ++ v) ∧ m.Reads (a.getLast?.or last) u (v ++ rest)

theorem Covers.occursIn (h : Covers m p) (hm : m.takesSome = true) (hp : p.takesSome = true)
    {s : String} (hs : p.occursIn s = true) : m.occursIn s = true := by
  obtain ⟨a, w, b, hs, hr⟩ := (occursIn_iff hp).mp hs
  obtain ⟨a', u, v, rfl, hu⟩ := h _ _ _ hr
  refine (occursIn_iff hm).mpr ⟨a ++ a', u, v ++ b, ?_, ?_⟩
  · rw [hs]
    simp only [List.append_assoc]
  · rwa [List.getLast?_append]

/-- What the pattern reads begins with a character of the class. -/
def Begins (ok : Char → Bool) (p : Pattern) : Prop :=
  ∀ last w rest, p.Reads last w rest → ∃ c t, w = c :: t ∧ ok c = true

theorem begins_char {f : Char → Bool} (hf : ∀ c, f c = true → ok c = true) :
    Begins ok (char f) := by
  rintro last w rest ⟨c, hc, rfl⟩
  exact ⟨c, [], rfl, hf c hc⟩

theorem Begins.seq (h : Begins ok p) : Begins ok (seq p q) := by
  rintro last w rest ⟨u, v, rfl, hu, -⟩
  obtain ⟨c, t, rfl, hc⟩ := h _ _ _ hu
  exact ⟨c, t ++ v, rfl, hc⟩

theorem Begins.many_seq {f : Char → Bool} (hf : ∀ c, f c = true → ok c = true) (h : Begins ok q) :
    Begins ok (.seq (many f) q) := by
  rintro last w rest ⟨u, v, rfl, hu, hv⟩
  cases u with
  | nil => exact h _ _ _ hv
  | cons c u => exact ⟨c, u ++ v, rfl, hf c (hu c List.mem_cons_self)⟩

end Pattern

namespace File

open Pattern Script

variable {i b rest : List Char} {last : Option Char} {c : Char}

/-! ## Marks -/

/-- The class of the character behind `import` in a mark. -/
def opensImport (c : Char) : Bool := Text.isBlank c || c == '\x7b' || c == '*' || isQuote c

theorem opensImport_of_isBlank (h : Text.isBlank c = true) : opensImport c = true := by
  simp [opensImport, h]

theorem reads_importMark (hl : last = none ∨ last = some '\n')
    (hi : ∀ c ∈ i, Text.isIndent c = true) (hc : opensImport c = true) :
    moduleMark.Reads last (i ++ (letters "import" ++ [c])) rest :=
  .inl ⟨[], _, rfl, ⟨rfl, hl⟩, i, _, rfl, fun d hd => Text.isBlank_of_isIndent (hi d hd), _, _, rfl,
    (reads_word _).mpr rfl, c, hc, rfl⟩

theorem reads_exportMark (hl : last = none ∨ last = some '\n')
    (hi : ∀ c ∈ i, Text.isIndent c = true) (hc : Text.isBlank c = true) :
    moduleMark.Reads last (i ++ (letters "export" ++ [c])) rest :=
  .inr (.inl ⟨[], _, rfl, ⟨rfl, hl⟩, i, _, rfl, fun d hd => Text.isBlank_of_isIndent (hi d hd), _, _,
    rfl, (reads_word _).mpr rfl, c, hc, rfl⟩)

/-- A word has an edge at its beginning where a line begins with blanks and the word. -/
theorem isWord_before (hl : last = none ∨ last = some '\n')
    (hi : ∀ c ∈ i, Text.isIndent c = true) : (i.getLast?.or last).any Text.isWord = false := by
  cases hg : i.getLast? with
  | none => exact Text.any_isWord_eq_false hl
  | some c =>
    have hb := Text.isBlank_of_isIndent (hi c (List.mem_of_getLast? hg))
    exact Text.isWord_eq_false_of_isBlank hb

/-- The edge in front of `export`. -/
theorem reads_wordEdge_export (hl : last.any Text.isWord = false) {v : List Char} :
    wordEdge.Reads last [] (letters "export" ++ v) := by
  refine ⟨rfl, ?_⟩
  show last.any Text.isWord ≠ (some 'e').any Text.isWord
  rw [hl]
  decide

theorem reads_listMark (hl : last.any Text.isWord = false) (hb : ∀ c ∈ b, Text.isBlank c = true) :
    moduleMark.Reads last (letters "export" ++ (b ++ ['\x7b'])) rest :=
  .inr (.inr (.inr (.inl ⟨[], _, rfl, reads_wordEdge_export hl, _, _, rfl, (reads_word _).mpr rfl, b,
    _, rfl, hb, '\x7b', rfl, rfl⟩)))

theorem reads_starMark (hl : last.any Text.isWord = false) (hb : ∀ c ∈ b, Text.isBlank c = true) :
    moduleMark.Reads last (letters "export" ++ (b ++ ['*'])) rest :=
  .inr (.inr (.inr (.inr (.inr ⟨[], _, rfl, reads_wordEdge_export hl, _, _, rfl,
    (reads_word _).mpr rfl, b, _, rfl, hb, '*', rfl, rfl⟩))))

theorem reads_defaultMark (hl : last.any Text.isWord = false) {d : Char} {t : List Char}
    (hd : Text.isBlank d = true) (ht : ∀ c ∈ t, Text.isBlank c = true)
    (hc : Text.isBlank c = true) :
    moduleMark.Reads last (letters "export" ++ (d :: t ++ letters "default")) (c :: rest) := by
  have hedge : wordEdge.Reads (some 't') [] (c :: rest) := by
    refine ⟨rfl, ?_⟩
    rw [List.head?_cons, Option.any_some, Option.any_some, Text.isWord_eq_false_of_isBlank hc]
    decide
  exact .inr (.inr (.inr (.inr (.inl ⟨[], _, rfl, reads_wordEdge_export hl, _, _, rfl,
    (reads_word _).mpr rfl, _, _, rfl, reads_some1.mpr ⟨d, t, rfl, hd, ht⟩, _, [],
    (List.append_nil _).symm, (reads_word _).mpr rfl, hedge⟩))))

/-! ## Where the rules read, there is a mark -/

/-- An import behind whose word a character of the class stands. -/
theorem covers_import {ind p : Pattern}
    (hind : ∀ {last w rest}, ind.Reads last w rest → ∀ c ∈ w, Text.isIndent c = true)
    (hp : Begins opensImport p) :
    Covers moduleMark (all [lineStart, ind, Pattern.text "import", p]) := by
  rintro last w rest ⟨_, _, rfl, ⟨rfl, hl⟩, i, _, rfl, hi, _, _, rfl, hw, hv⟩
  obtain rfl := (reads_word _).mp hw
  obtain ⟨c, t, rfl, hc⟩ := hp _ _ _ hv
  refine ⟨[], i ++ (letters "import" ++ [c]), t, ?_, reads_importMark hl (hind hi) hc⟩
  simp only [List.nil_append, List.append_assoc, List.cons_append]

/-- An export behind whose word a blank stands. -/
theorem covers_export {ind p : Pattern}
    (hind : ∀ {last w rest}, ind.Reads last w rest → ∀ c ∈ w, Text.isIndent c = true)
    (hp : Begins Text.isBlank p) :
    Covers moduleMark (all [lineStart, ind, Pattern.text "export", p]) := by
  rintro last w rest ⟨_, _, rfl, ⟨rfl, hl⟩, i, _, rfl, hi, _, _, rfl, hw, hv⟩
  obtain rfl := (reads_word _).mp hw
  obtain ⟨c, t, rfl, hc⟩ := hp _ _ _ hv
  refine ⟨[], i ++ (letters "export" ++ [c]), t, ?_, reads_exportMark hl (hind hi) hc⟩
  simp only [List.nil_append, List.append_assoc, List.cons_append]

/-- An export of a list or a star, which may follow its word without a blank. -/
theorem covers_export_gap {q : Pattern} {opening : Char} (hq : Begins (· == opening) q)
    (hm : ∀ {last b rest}, last.any Text.isWord = false → (∀ c ∈ b, Text.isBlank c = true) →
      moduleMark.Reads last (letters "export" ++ (b ++ [opening])) rest) :
    Covers moduleMark (all [lineStart, indent, Pattern.text "export", gap, q]) := by
  intro last w rest h
  obtain ⟨hl, i, b, _, v, rfl, hi, hb, hv⟩ :=
    reads_behind_word indents_of_reads blanks_of_reads_gap h
  obtain ⟨c, t, rfl, hc⟩ := hq _ _ _ hv
  obtain rfl := eq_of_beq hc
  refine ⟨i, letters "export" ++ (b ++ [c]), t, ?_, hm (isWord_before hl hi) hb⟩
  simp only [List.append_assoc, List.cons_append, List.nil_append]

theorem begins_separator {q : Pattern} : Begins Text.isBlank (seq separator q) :=
  .seq (.seq (begins_char fun _ hc => hc))

/-- Every statement that a rule reads holds a mark. -/
theorem covers_rule (k : Script.Kind) : Covers moduleMark k.rule.pattern := by
  cases k with
  | bareImport =>
    rintro last w rest ⟨_, _, rfl, ⟨rfl, hl⟩, i, _, rfl, hi, _, tail, rfl, hs, -⟩
    obtain ⟨_, _, rfl, hw, hs⟩ := hs
    obtain rfl := (reads_word _).mp hw
    have hp : Begins opensImport (all [gap, specifier, indent, optional (this ';')]) :=
      .many_seq (fun _ => opensImport_of_isBlank)
        (.seq (.seq (begins_char fun c hc => by simp [opensImport, hc])))
    obtain ⟨c, t, rfl, hc⟩ := hp _ _ _ hs
    refine ⟨[], i ++ (letters "import" ++ [c]), t ++ tail, ?_, reads_importMark hl hi hc⟩
    simp only [List.nil_append, List.append_assoc, List.cons_append]
  | namedImport =>
    exact covers_import indents_of_reads (.many_seq (fun _ => opensImport_of_isBlank)
      (.seq (.seq (begins_char fun c hc => by simp [opensImport, eq_of_beq hc]))))
  | namespaceImport =>
    exact covers_import indents_of_reads (.many_seq (fun _ => opensImport_of_isBlank)
      (.seq (.seq (begins_char fun c hc => by simp [opensImport, eq_of_beq hc]))))
  | defaultImport =>
    exact covers_import indents_of_reads
      (.seq (.seq (begins_char fun _ => opensImport_of_isBlank)))
  | exportedFunction => exact covers_export indents_of_reads_group begins_separator
  | exportedClass => exact covers_export indents_of_reads_group begins_separator
  | exportedBinding => exact covers_export indents_of_reads_group begins_separator
  | listExport =>
    exact covers_export_gap (.seq (.seq (begins_char fun _ hc => hc))) reads_listMark
  | starExport => exact covers_export_gap (.seq (begins_char fun _ hc => hc)) reads_starMark
  | defaultExport =>
    rintro last w rest ⟨_, _, rfl, ⟨rfl, he⟩, _, _, rfl, hw, _, _, rfl, hs, _, _, rfl, hw', hb⟩
    obtain rfl := (reads_word _).mp hw
    obtain rfl := (reads_word _).mp hw'
    obtain ⟨d, t, rfl, hd, ht⟩ := reads_some1.mp hs
    obtain ⟨c, t', rfl, hc, -⟩ := reads_some1.mp hb
    have hl : last.any Text.isWord = false := by
      have hx : (some 'e').any Text.isWord = true := by decide
      exact Bool.eq_false_iff.mpr (hx ▸ he)
    refine ⟨[], letters "export" ++ (d :: t ++ letters "default"), c :: t', ?_,
      reads_defaultMark hl hd ht hc⟩
    simp only [List.nil_append, List.append_assoc]

theorem exists_kind_of_mem_passes {r : Rule} (hr : r ∈ passes) : ∃ k : Script.Kind, k.rule = r := by
  simp only [passes, importRemovals, declarations, exportRemovals, List.cons_append,
    List.nil_append, List.mem_cons, List.not_mem_nil, or_false] at hr
  rcases hr with rfl | rfl | rfl | rfl | rfl | rfl | rfl | rfl | rfl | rfl
  exacts [⟨.bareImport, rfl⟩, ⟨.namedImport, rfl⟩, ⟨.namespaceImport, rfl⟩, ⟨.defaultImport, rfl⟩,
    ⟨.exportedFunction, rfl⟩, ⟨.exportedClass, rfl⟩, ⟨.exportedBinding, rfl⟩, ⟨.listExport, rfl⟩,
    ⟨.starExport, rfl⟩, ⟨.defaultExport, rfl⟩]

/-- A text of which a rule reads a piece is that of a module, under any name. -/
theorem isModule_of_occursIn {r : Rule} (hr : r ∈ passes) (name : String) {text : String}
    (h : r.occursIn text = true) : isModule name text = true := by
  obtain ⟨k, rfl⟩ := exists_kind_of_mem_passes hr
  have hm : moduleMark.occursIn text = true :=
    (covers_rule k).occursIn (by decide) (passes_shape _ hr).1 h
  simp [isModule, hm]

/-! ## Classic scripts -/

theorem isModule_eq_false_of_script {name text : String}
    (h : recognise name (some text) = .script) : isModule name text = false := by
  have hi (fallback : Kind) (hf : fallback ≠ .script) : inspect name text fallback ≠ .script := by
    unfold inspect
    split
    · decide
    split
    · decide
    split
    · decide
    · exact hf
  unfold recognise at h
  dsimp only at h
  split at h
  · cases hm : isModule name text with
    | false => rfl
    | true => simp [hm] at h
  · exact absurd h (hi .plain (by decide))
  · exact absurd h (hi .binary (by decide))
  · contradiction

/-- A file whose text holds a statement that a rule reads is a module. So no rule reads a piece of a
file that its name and its text make a classic script, and linking would have left it as it is. -/
theorem rules_need_mark (name text : String) :
    (∀ r ∈ passes, r.occursIn text = true → isModule name text = true) ∧
    ((recognise name (some text)).role = .classicScript →
      (∀ r ∈ passes, r.occursIn text = false) ∧ (⟨name, text⟩ : Source).body = text) := by
  refine ⟨fun r hr h => isModule_of_occursIn hr name h, fun h => ?_⟩
  have hm := isModule_eq_false_of_script (role_eq_classicScript_iff.mp h)
  have hn : ∀ r ∈ passes, r.occursIn text = false := fun r hr => by
    by_contra ho
    have := isModule_of_occursIn hr name (Bool.not_eq_false _ ▸ ho)
    exact Bool.false_ne_true (hm.symm.trans this)
  refine ⟨hn, ?_⟩
  rw [body_eq]
  exact (Rule.foldl_apply_eq_self_iff (fun r hr => (passes_shape r hr).1) passes_shorten).mpr hn

theorem rules_need_mark_importantScript :
    starExport.occursIn "a();\n  export\n* from 'b'\n" = true ∧
    isModule "notes" "a();\n  export\n* from 'b'\n" = true ∧
    (recognise "a.js" (some "const important = 1; // exports")).role = .classicScript ∧
    (⟨"a.js", "const important = 1; // exports"⟩ : Source).body =
      "const important = 1; // exports" := by
  have ho : starExport.occursIn "a();\n  export\n* from 'b'\n" = true := by decide
  have hmem : starExport ∈ passes := by simp [passes, exportRemovals]
  have hrole : (recognise "a.js" (some "const important = 1; // exports")).role =
      .classicScript := by decide
  exact ⟨ho, (rules_need_mark "notes" _).1 _ hmem ho, hrole,
    ((rules_need_mark "a.js" _).2 hrole).2⟩

end File
end Workbench
