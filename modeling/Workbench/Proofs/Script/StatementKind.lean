import Workbench.Proofs.Script.Line
import Workbench.Proofs.Text.Classes

/-!
# The kind of a statement, told from its beginning

`kindAt? s` tells from the words at the beginning of a line which kind of statement stands there. The
rules agree with it: a rule that reads from the start of a line reads nothing unless a statement of
its own kind stands there (`kindAt?_of_reads`). So a line is safe from every rule but one, whatever
the rules can make of the rest of it and of the lines behind it.
-/

namespace Workbench.Script

open Pattern

/-- The text behind the word with which a line begins, without the blanks around the word. -/
def behindWord (word s : List Char) : Option (List Char) :=
  let t := s.dropWhile Text.isIndent
  if word.isPrefixOf t then some ((t.drop word.length).dropWhile Text.isBlank) else none

/-- The kind of an import, told from what stands behind `import`. -/
def importKind? : List Char → Option Kind
  | [] => none
  | c :: _ =>
    if isQuote c then some .bareImport
    else if c = '\x7b' then some .namedImport
    else if c = '*' then some .namespaceImport
    else if isNameStart c then some .defaultImport
    else none

/-- The kind of an export, told from what stands behind `export`. -/
def exportKind? : List Char → Option Kind
  | '\x7b' :: _ => some .listExport
  | '*' :: _ => some .starExport
  | 'd' :: _ => some .defaultExport
  | 'a' :: _ => some .exportedFunction
  | 'f' :: _ => some .exportedFunction
  | 'l' :: _ => some .exportedBinding
  | 'v' :: _ => some .exportedBinding
  | 'c' :: 'l' :: _ => some .exportedClass
  | 'c' :: 'o' :: _ => some .exportedBinding
  | _ => none

/-- The kind of the statement at the beginning of a line. -/
def kindAt? (s : List Char) : Option Kind :=
  match behindWord (letters "import") s with
  | some v => importKind? v
  | none =>
    match behindWord (letters "export") s with
    | some v => exportKind? v
    | none => none

variable {i b s t v w rest : List Char} {last : Option Char}

theorem behind?_eq_some_iff : behind? w s = some t ↔ s = w ++ t := by
  rw [behind?]
  constructor
  · intro h
    split at h
    · rename_i hp
      obtain ⟨v, rfl⟩ := List.isPrefixOf_iff_prefix.mp hp
      rw [List.drop_left] at h
      rw [Option.some.inj h]
    · exact absurd h.symm (Option.some_ne_none t)
  · rintro rfl
    rw [if_pos (by simp), List.drop_left]

theorem behind?_append : behind? w (w ++ t) = some t := behind?_eq_some_iff.mpr rfl

theorem behindWord_eq {word : List Char} (hw : Stops Text.isIndent word) (hne : word ≠ [])
    (hi : ∀ c ∈ i, Text.isIndent c = true) (hb : ∀ c ∈ b, Text.isBlank c = true)
    (hv : Stops Text.isBlank v) : behindWord word (i ++ (word ++ (b ++ v))) = some v := by
  have hs : Stops Text.isIndent (word ++ (b ++ v)) := (stops_append_iff hne).mpr hw
  rw [behindWord, dropWhile_run hi hs, if_pos (by simp), List.drop_left, dropWhile_run hb hv]

theorem behindWord_eq_none {word : List Char} (hi : ∀ c ∈ i, Text.isIndent c = true)
    (hv : Stops Text.isIndent v) (hp : ¬ word <+: v) : behindWord word (i ++ v) = none := by
  rw [behindWord, dropWhile_run hi hv, if_neg (by simpa using hp)]

theorem not_prefix_append {word word' : List Char} (hl : word.length ≤ word'.length)
    (h : ¬ word <+: word') : ¬ word <+: word' ++ v :=
  fun hp => h (List.prefix_of_prefix_length_le hp (List.prefix_append word' v) hl)

theorem kindAt?_import (hi : ∀ c ∈ i, Text.isIndent c = true) (hb : ∀ c ∈ b, Text.isBlank c = true)
    (hv : Stops Text.isBlank v) :
    kindAt? (i ++ (letters "import" ++ (b ++ v))) = importKind? v := by
  have hw : Stops Text.isIndent (letters "import") := stops_cons.mpr rfl
  rw [kindAt?, behindWord_eq hw (by decide) hi hb hv]

theorem kindAt?_export (hi : ∀ c ∈ i, Text.isIndent c = true) (hb : ∀ c ∈ b, Text.isBlank c = true)
    (hv : Stops Text.isBlank v) :
    kindAt? (i ++ (letters "export" ++ (b ++ v))) = exportKind? v := by
  have hw : Stops Text.isIndent (letters "export") := stops_cons.mpr rfl
  have hn : behindWord (letters "import") (i ++ (letters "export" ++ (b ++ v))) = none :=
    behindWord_eq_none hi (stops_cons.mpr rfl) (not_prefix_append (by decide) (by decide))
  rw [kindAt?, hn, behindWord_eq hw (by decide) hi hb hv]

theorem kindAt?_eq_none (hi : ∀ c ∈ i, Text.isIndent c = true) (hv : Stops Text.isIndent v)
    (h₁ : ¬ letters "import" <+: v) (h₂ : ¬ letters "export" <+: v) : kindAt? (i ++ v) = none := by
  rw [kindAt?, behindWord_eq_none hi hv h₁, behindWord_eq_none hi hv h₂]

/-! ## What the rules read -/

theorem isBlank_eq_false_of_isNameStart {c : Char} (h : isNameStart c = true) :
    Text.isBlank c = false := by
  have hw : Text.isLetter c = true ∨ c = '_' ∨ c = '$' := by
    simpa [isNameStart, or_assoc] using h
  rcases hw with hw | rfl | rfl
  · rw [← Bool.not_eq_true]
    intro hb
    have := Text.lt_of_isLetter hw
    have := Text.isBlank_of_lt hb (by omega)
    omega
  · decide
  · decide

theorem importKind?_of_isNameStart {c : Char} (h : isNameStart c = true) :
    importKind? (c :: v) = some .defaultImport := by
  have hq : isQuote c = false := by
    rw [← Bool.not_eq_true]
    intro hq
    rcases Bool.or_eq_true _ _ ▸ hq with hq | hq
    · exact absurd (eq_of_beq hq ▸ h) (by decide)
    · exact absurd (eq_of_beq hq ▸ h) (by decide)
  have h₁ : c ≠ '\x7b' := fun hc => absurd (hc ▸ h) (by decide)
  have h₂ : c ≠ '*' := fun hc => absurd (hc ▸ h) (by decide)
  simp [importKind?, hq, h₁, h₂, h]

theorem reads_word (word : String) : (text word).Reads last w rest ↔ w = letters word :=
  reads_text word

theorem indents_of_reads (h : indent.Reads last w rest) : ∀ c ∈ w, Text.isIndent c = true := h

theorem indents_of_reads_group (h : (group 1 indent).Reads last w rest) :
    ∀ c ∈ w, Text.isIndent c = true := h

theorem blanks_of_reads_gap (h : gap.Reads last w rest) : ∀ c ∈ w, Text.isBlank c = true := h

theorem blanks_of_reads_separator (h : separator.Reads last w rest) :
    ∀ c ∈ w, Text.isBlank c = true := by
  obtain ⟨c, v, rfl, hc, hv⟩ := reads_some1.mp h
  exact List.forall_mem_cons.mpr ⟨hc, hv⟩

theorem reads_behind_word {word : String} {ind g q : Pattern}
    (hind : ∀ {last w rest}, ind.Reads last w rest → ∀ c ∈ w, Text.isIndent c = true)
    (hg : ∀ {last w rest}, g.Reads last w rest → ∀ c ∈ w, Text.isBlank c = true)
    (h : (all [lineStart, ind, text word, g, q]).Reads last w rest) :
    (last = none ∨ last = some '\n') ∧ ∃ i b last' v, w = i ++ (letters word ++ (b ++ v)) ∧
      (∀ c ∈ i, Text.isIndent c = true) ∧ (∀ c ∈ b, Text.isBlank c = true) ∧
      q.Reads last' v rest := by
  obtain ⟨_, _, rfl, ⟨rfl, hl⟩, i, _, rfl, hi, _, _, rfl, hw, b, v, rfl, hb, hv⟩ := h
  obtain rfl := (reads_word word).mp hw
  exact ⟨hl, i, b, _, v, rfl, hind hi, hg hb, hv⟩

/-- A rule for imports reads an import of its kind if what it reads behind the word says so. -/
theorem kindAt?_of_reads_import {ind g q : Pattern} {k : Kind}
    (hind : ∀ {last w rest}, ind.Reads last w rest → ∀ c ∈ w, Text.isIndent c = true)
    (hg : ∀ {last w rest}, g.Reads last w rest → ∀ c ∈ w, Text.isBlank c = true)
    (hq : ∀ {last v}, q.Reads last v rest →
      Stops Text.isBlank (v ++ rest) ∧ importKind? (v ++ rest) = some k)
    (h : (all [lineStart, ind, text "import", g, q]).Reads last w rest) :
    (last = none ∨ last = some '\n') ∧ kindAt? (w ++ rest) = some k := by
  obtain ⟨hl, i, b, _, v, rfl, hi, hb, hv⟩ := reads_behind_word hind hg h
  obtain ⟨hs, hk⟩ := hq hv
  refine ⟨hl, ?_⟩
  rw [List.append_assoc, List.append_assoc, List.append_assoc, kindAt?_import hi hb hs, hk]

/-- A rule for exports reads an export of its kind if what it reads behind the word says so. -/
theorem kindAt?_of_reads_export {ind g q : Pattern} {k : Kind}
    (hind : ∀ {last w rest}, ind.Reads last w rest → ∀ c ∈ w, Text.isIndent c = true)
    (hg : ∀ {last w rest}, g.Reads last w rest → ∀ c ∈ w, Text.isBlank c = true)
    (hq : ∀ {last v}, q.Reads last v rest →
      Stops Text.isBlank (v ++ rest) ∧ exportKind? (v ++ rest) = some k)
    (h : (all [lineStart, ind, text "export", g, q]).Reads last w rest) :
    (last = none ∨ last = some '\n') ∧ kindAt? (w ++ rest) = some k := by
  obtain ⟨hl, i, b, _, v, rfl, hi, hb, hv⟩ := reads_behind_word hind hg h
  obtain ⟨hs, hk⟩ := hq hv
  refine ⟨hl, ?_⟩
  rw [List.append_assoc, List.append_assoc, List.append_assoc, kindAt?_export hi hb hs, hk]

theorem kindAt?_of_reads_bareImport (h : bareImport.pattern.Reads last w rest) :
    (last = none ∨ last = some '\n') ∧ kindAt? (w ++ rest) = some .bareImport := by
  obtain ⟨_, _, rfl, ⟨rfl, hl⟩, i, _, rfl, hi, _, _, rfl, hs, -⟩ := h
  obtain ⟨_, _, rfl, hw, b, _, rfl, hb, _, _, rfl, ⟨_, _, rfl, ⟨c, hc, rfl⟩, -⟩, -⟩ := hs
  obtain rfl := (reads_word _).mp hw
  refine ⟨hl, ?_⟩
  simp only [List.nil_append, List.append_assoc, List.cons_append]
  rw [kindAt?_import hi hb (stops_cons.mpr (isBlank_eq_false_of_isQuote hc)), importKind?, if_pos hc]

/-! What stands behind the word in the statements of each other kind. -/

theorem exists_cons_of_reads_braced {q : Pattern} (h : (seq braced q).Reads last v rest) :
    ∃ u, v = '\x7b' :: u := by
  obtain ⟨_, _, rfl, ⟨_, _, rfl, ⟨c, hc, rfl⟩, -⟩, -⟩ := h
  exact ⟨_, congrArg (· :: _) (eq_of_beq hc)⟩

theorem importKind?_of_reads_braced {q : Pattern} (h : (seq braced q).Reads last v rest) :
    Stops Text.isBlank (v ++ rest) ∧ importKind? (v ++ rest) = some .namedImport := by
  obtain ⟨u, rfl⟩ := exists_cons_of_reads_braced h
  exact ⟨stops_cons.mpr (by decide), rfl⟩

theorem importKind?_of_reads_starAs {q : Pattern} (h : (seq starAs q).Reads last v rest) :
    Stops Text.isBlank (v ++ rest) ∧ importKind? (v ++ rest) = some .namespaceImport := by
  obtain ⟨_, _, rfl, ⟨_, _, rfl, ⟨c, hc, rfl⟩, -⟩, -⟩ := h
  obtain rfl := eq_of_beq hc
  exact ⟨stops_cons.mpr (by decide), rfl⟩

theorem importKind?_of_reads_identifier {q : Pattern} (h : (seq identifier q).Reads last v rest) :
    Stops Text.isBlank (v ++ rest) ∧ importKind? (v ++ rest) = some .defaultImport := by
  obtain ⟨_, _, rfl, ⟨_, _, rfl, ⟨c, hc, rfl⟩, -⟩, -⟩ := h
  exact ⟨stops_cons.mpr (isBlank_eq_false_of_isNameStart hc), importKind?_of_isNameStart hc⟩

theorem exportKind?_of_reads_function {p q : Pattern}
    (h : (seq (group 2 (all [optional (all [text "async", separator]), text "function", p])) q).Reads
      last v rest) :
    Stops Text.isBlank (v ++ rest) ∧ exportKind? (v ++ rest) = some .exportedFunction := by
  obtain ⟨_, _, rfl, ⟨_, _, rfl, ha, _, _, rfl, hf, -⟩, -⟩ := h
  obtain rfl := (reads_word _).mp hf
  rcases ha with ⟨_, _, rfl, ha, -⟩ | rfl
  · obtain rfl := (reads_word _).mp ha
    exact ⟨stops_cons.mpr (by decide), rfl⟩
  · exact ⟨stops_cons.mpr (by decide), rfl⟩

theorem exportKind?_of_reads_class {p q : Pattern}
    (h : (seq (group 2 (all [text "class", p])) q).Reads last v rest) :
    Stops Text.isBlank (v ++ rest) ∧ exportKind? (v ++ rest) = some .exportedClass := by
  obtain ⟨_, _, rfl, ⟨_, _, rfl, hw, -⟩, -⟩ := h
  obtain rfl := (reads_word _).mp hw
  exact ⟨stops_cons.mpr (by decide), rfl⟩

theorem exportKind?_of_reads_binding {q : Pattern}
    (h : (seq (group 2 (anyOf [text "const", text "let", text "var"])) q).Reads last v rest) :
    Stops Text.isBlank (v ++ rest) ∧ exportKind? (v ++ rest) = some .exportedBinding := by
  obtain ⟨_, _, rfl, hw, -⟩ := h
  rcases hw with hw | hw | hw
  all_goals
    obtain rfl := (reads_word _).mp hw
    exact ⟨stops_cons.mpr (by decide), rfl⟩

theorem exportKind?_of_reads_braced {q : Pattern} (h : (seq braced q).Reads last v rest) :
    Stops Text.isBlank (v ++ rest) ∧ exportKind? (v ++ rest) = some .listExport := by
  obtain ⟨u, rfl⟩ := exists_cons_of_reads_braced h
  exact ⟨stops_cons.mpr (by decide), rfl⟩

theorem exportKind?_of_reads_star {q : Pattern} (h : (seq (this '*') q).Reads last v rest) :
    Stops Text.isBlank (v ++ rest) ∧ exportKind? (v ++ rest) = some .starExport := by
  obtain ⟨_, _, rfl, ⟨c, hc, rfl⟩, -⟩ := h
  obtain rfl := eq_of_beq hc
  exact ⟨stops_cons.mpr (by decide), rfl⟩

/-- An anchored rule reads only at the start of a line, and only a statement of its kind. -/
theorem kindAt?_of_reads {k : Kind} (hk : k ≠ .defaultExport)
    (h : k.rule.pattern.Reads last w rest) :
    (last = none ∨ last = some '\n') ∧ kindAt? (w ++ rest) = some k := by
  cases k with
  | defaultExport => exact absurd rfl hk
  | bareImport => exact kindAt?_of_reads_bareImport h
  | namedImport =>
    exact kindAt?_of_reads_import indents_of_reads blanks_of_reads_gap importKind?_of_reads_braced h
  | namespaceImport =>
    exact kindAt?_of_reads_import indents_of_reads blanks_of_reads_gap importKind?_of_reads_starAs h
  | defaultImport =>
    exact kindAt?_of_reads_import indents_of_reads blanks_of_reads_separator
      importKind?_of_reads_identifier h
  | exportedFunction =>
    exact kindAt?_of_reads_export indents_of_reads_group blanks_of_reads_separator
      exportKind?_of_reads_function h
  | exportedClass =>
    exact kindAt?_of_reads_export indents_of_reads_group blanks_of_reads_separator
      exportKind?_of_reads_class h
  | exportedBinding =>
    exact kindAt?_of_reads_export indents_of_reads_group blanks_of_reads_separator
      exportKind?_of_reads_binding h
  | listExport =>
    exact kindAt?_of_reads_export indents_of_reads blanks_of_reads_gap exportKind?_of_reads_braced h
  | starExport =>
    exact kindAt?_of_reads_export indents_of_reads blanks_of_reads_gap exportKind?_of_reads_star h

end Workbench.Script
