import Workbench.Proofs.Script.LineShape

/-!
# What the rules read in a line of their kind

The preferred reading of a part of a line is the part, provided that the text behind it does not go
on in the same class. So a rule reads a statement of its kind up to the end of the line, and a
declaration up to the end of the name.
-/

namespace Workbench.Script

open Pattern

variable {rest v w : List Char} {last : Option Char}

/-! ## Parts -/

theorem isNamePart_of_isBlank {c : Char} (h : Text.isBlank c = true) : isNamePart c = false := by
  have hd : c ≠ '$' := fun hc => absurd (hc ▸ h) (by decide)
  rw [isNamePart, Text.isWord_eq_false_of_isBlank h]
  simp [hd]

theorem isNamePart_of_isNameStart {c : Char} (h : isNameStart c = true) : isNamePart c = true := by
  have hc : Text.isLetter c = true ∨ c = '_' ∨ c = '$' := by
    simpa [isNameStart, or_assoc] using h
  rcases hc with hc | rfl | rfl
  · have := Text.lt_of_isLetter hc
    have hw : Text.isAsciiWord c = true := by rw [Text.isAsciiWord, hc]; rfl
    rw [isNamePart, Text.isWord_of_isAsciiWord (by omega) hw]
    rfl
  · decide
  · decide

theorem Identifier.isNamePart (x : Identifier) : ∀ c ∈ x.chars, Script.isNamePart c = true :=
  List.forall_mem_cons.mpr ⟨isNamePart_of_isNameStart x.first_ok, x.more.all_ok⟩

theorem Separator.stops_isNamePart (s : Separator) : Stops isNamePart (s.chars ++ v) :=
  stops_cons.mpr (isNamePart_of_isBlank (s.isBlank _ List.mem_cons_self))

theorem Identifier.stops_isBlank (x : Identifier) : Stops Text.isBlank (x.chars ++ v) :=
  stops_cons.mpr (isBlank_eq_false_of_isNameStart x.first_ok)

theorem prefers_gap (g : Gap) (h : Stops Text.isBlank rest) :
    gap.Prefers last g.chars rest [] := .many g.isBlank h

theorem prefers_separator (s : Separator) (h : Stops Text.isBlank rest) :
    separator.Prefers last s.chars rest [] :=
  .some1 (s.isBlank _ List.mem_cons_self) s.more.isBlank h

theorem prefers_identifier (x : Identifier) (h : Stops isNamePart rest) :
    identifier.Prefers last x.chars rest [] :=
  .andThen (u := [x.first]) (.char x.first_ok) (.many x.more.all_ok h)

theorem prefers_specifier (x : Specifier) : specifier.Prefers last x.chars rest [] := by
  have h : Stops isSpecifierChar ([x.closing] ++ rest) :=
    stops_cons.mpr (by simp [isSpecifierChar, x.closing_ok])
  exact .andThen (u := [x.opening]) (.char x.opening_ok)
    (.andThen (.some1 x.first_ok x.more.all_ok h) (.char x.closing_ok))

theorem Specifier.stops_isBlank (x : Specifier) : Stops Text.isBlank (x.chars ++ v) :=
  stops_cons.mpr (isBlank_eq_false_of_isQuote x.opening_ok)

theorem prefers_fromClause (x : FromClause) : fromClause.Prefers last x.chars rest [] :=
  .andThen (.text "from") (.andThen (prefers_gap x.gap x.specifier.stops_isBlank)
    (prefers_specifier x.specifier))

theorem FromClause.stops_isBlank (x : FromClause) : Stops Text.isBlank (x.chars ++ v) :=
  stops_cons.mpr (by decide)

theorem prefers_braced (names : Names) : braced.Prefers last names.inBraces rest [] := by
  have hn : ∀ c ∈ names.chars, (c != '\x7d') = true :=
    fun c hc => (Bool.and_eq_true _ _ ▸ names.all_ok c hc).1
  have h : Stops (· != '\x7d') (['\x7d'] ++ rest) := stops_cons.mpr rfl
  exact .andThen (u := ['\x7b']) (.char rfl) (.andThen (.many hn h) (.char rfl))

theorem Run.stops_inBraces (names : Names) : Stops Text.isBlank (names.inBraces ++ v) :=
  stops_cons.mpr (by decide)

theorem prefers_asName (x : StarName) (h : Stops isNamePart rest) :
    (all [gap, text "as", separator, identifier]).Prefers last x.asName rest [] := by
  have ha (v : List Char) : Stops Text.isBlank (letters "as" ++ v) := stops_cons.mpr (by decide)
  rw [StarName.asName]
  refine .andThen (prefers_gap x.gap ?_) <| .andThen (.text "as") <|
    .andThen (prefers_separator x.separator x.name.stops_isBlank) (prefers_identifier x.name h)
  rw [List.append_assoc]
  exact ha _

theorem prefers_starAs (x : StarName) (h : Stops isNamePart rest) :
    starAs.Prefers last x.chars rest [] :=
  .andThen (u := ['*']) (.char rfl) (prefers_asName x h)

theorem StarName.stops_isBlank (x : StarName) : Stops Text.isBlank (x.chars ++ v) :=
  stops_cons.mpr (by decide)

theorem prefers_lineEnd (t : Tail) : blankTail.Prefers last t.lineEnd rest [] := by
  have hn (last : Option Char) : (optional lineBreak).Prefers last ['\n'] rest [] :=
    .left (.andThen (u := []) (prefers_skip_this (stops_cons.mpr rfl)) (.char rfl))
  have hs : Stops Text.isIndent (['\n'] ++ rest) := stops_cons.mpr rfl
  rw [Tail.lineEnd]
  cases t.behind? with
  | none => exact .andThen (u := []) (.many_nil hs) (hn _)
  | some b => exact .andThen (.many b.all_ok hs) (hn _)

theorem prefers_close (t : Tail) :
    (all [indent, optional (this ';')]).Prefers last t.close (t.lineEnd ++ rest) [] := by
  rw [Tail.close, Tail.lineEnd]
  cases t.behind? with
  | none =>
    exact .andThen (.many t.before.all_ok (stops_cons.mpr rfl))
      (prefers_skip_this (stops_cons.mpr rfl))
  | some b =>
    exact .andThen (.many t.before.all_ok (stops_cons.mpr rfl)) (.left (.char rfl))

theorem prefers_statementTail (t : Tail) :
    statementTail.Prefers last (t.close ++ t.lineEnd) rest [] :=
  .seq_assoc (.andThen (prefers_close t) (prefers_lineEnd t))

/-! ## Statements -/

/-- Behind its blanks the text does not go on with `from`. -/
def NotFrom (s : List Char) : Prop := ¬ letters "from" <+: s.dropWhile Text.isBlank

theorem notFrom_append (hw : ∀ c ∈ w, Text.isBlank c = true) : NotFrom (w ++ v) ↔ NotFrom v := by
  rw [NotFrom, NotFrom, List.dropWhile_append_of_pos hw]

theorem notFrom_newline : NotFrom ('\n' :: v) ↔ NotFrom v :=
  notFrom_append (w := ['\n']) (List.forall_mem_singleton.mpr (by decide))

theorem prefers_clause (x : DefaultClause) (hb : Stops Text.isBlank rest)
    (hc : Stops (· == ',') rest) :
    (all [gap, optional (all [this ',', gap, either braced starAs, gap])]).Prefers last x.chars rest
      [] := by
  cases x with
  | alone s =>
    rw [DefaultClause.chars, ← List.append_nil s.chars]
    exact .andThen (.many s.isBlank hb) (prefers_skip (not_reads_seq_this hc))
  | names b₁ b₂ list b₃ =>
    rw [DefaultClause.chars]
    refine .andThen (prefers_gap b₁ (stops_cons.mpr (by decide))) (.left ?_)
    refine .andThen (u := [',']) (.char rfl)
      (.andThen (prefers_gap b₂ list.stops_inBraces.assoc) ?_)
    exact .andThen (.left (prefers_braced list)) (prefers_gap b₃ hb)
  | star b₁ b₂ name s =>
    have h : Stops (· == '\x7b') (name.chars ++ (s.chars ++ rest)) := stops_cons.mpr (by decide)
    rw [DefaultClause.chars]
    refine .andThen (prefers_gap b₁ (stops_cons.mpr (by decide))) (.left ?_)
    refine .andThen (u := [',']) (.char rfl)
      (.andThen (prefers_gap b₂ name.stops_isBlank.assoc) ?_)
    exact .andThen (.right (not_reads_seq_this h) (prefers_starAs name s.stops_isNamePart))
      (.many s.isBlank hb)

theorem DefaultClause.stops_isNamePart (x : DefaultClause) : Stops isNamePart (x.chars ++ v) := by
  have hb (b : Gap) (w : List Char) : Stops isNamePart (b.chars ++ (',' :: w) ++ v) :=
    .assoc <| .append (fun c hc => isNamePart_of_isBlank (b.isBlank c hc)) <|
      stops_cons.mpr (by decide)
  cases x with
  | alone s => exact s.stops_isNamePart
  | names b₁ b₂ list b₃ => exact hb b₁ _
  | star b₁ b₂ name s => exact hb b₁ _

/-- A tail is not the beginning of a `from`, if the text behind the line is not. -/
theorem Tail.notFrom (t : Tail) (h : NotFrom rest) : NotFrom (t.close ++ t.lineEnd ++ rest) := by
  have hi : ∀ c ∈ t.before.chars, Text.isBlank c = true :=
    fun c hc => Text.isBlank_of_isIndent (t.before.all_ok c hc)
  rw [Tail.close, Tail.lineEnd, List.append_assoc, List.append_assoc, notFrom_append hi]
  cases t.behind? with
  | none => exact notFrom_newline.mpr h
  | some b => exact not_prefix_cons (by decide)

/-- What cannot begin with `from` behind blanks is not read as a clause. -/
theorem not_reads_fromClause {s : List Char} (h : NotFrom s) :
    ∀ u v, s = u ++ v → ¬ (all [gap, fromClause]).Reads last u v := by
  intro u v hs hr
  obtain ⟨b, _, rfl, hb, _, y, rfl, hw, -⟩ := hr
  obtain rfl := (reads_word _).mp hw
  rw [hs, List.append_assoc, notFrom_append hb] at h
  have hd : (letters "from" ++ (y ++ v)).dropWhile Text.isBlank = letters "from" ++ (y ++ v) :=
    dropWhile_run (w := []) (by simp) (stops_cons.mpr (by decide))
  refine h ?_
  rw [List.append_assoc, hd]
  exact List.prefix_append _ _

/-- The word `from` is not the word `as`. -/
theorem not_reads_asName {b : Gap} {s : List Char} (hs : s = b.chars ++ (letters "from" ++ w)) :
    ∀ u v, s = u ++ v → ¬ (all [gap, text "as", separator, identifier]).Reads last u v := by
  intro u v hs' hr
  obtain ⟨b', _, rfl, hb', _, y, rfl, hw, -⟩ := hr
  obtain rfl := (reads_word _).mp hw
  have hf : Stops Text.isBlank (letters "from" ++ w) := stops_cons.mpr (by decide)
  have ha : Stops Text.isBlank (letters "as" ++ (y ++ v)) := stops_cons.mpr (by decide)
  have h₁ : s.dropWhile Text.isBlank = letters "from" ++ w := by
    rw [hs, dropWhile_run b.isBlank hf]
  have h₂ : s.dropWhile Text.isBlank = letters "as" ++ (y ++ v) := by
    rw [hs', List.append_assoc, List.append_assoc, dropWhile_run hb' ha]
  have h := h₁.symm.trans h₂
  exact absurd (List.cons.inj h).1 (by decide)

theorem stops_import : Stops Text.isIndent (letters "import" ++ v) := stops_cons.mpr (by decide)

theorem stops_export : Stops Text.isIndent (letters "export" ++ v) := stops_cons.mpr (by decide)

/-- At the start of a line a rule reads the blanks, the word of the statement and what follows it. -/
theorem prefers_atLineStart {word : String} {g q : Pattern} {b : List Char} (i : Indent)
    (hl : last = none ∨ last = some '\n') (hi : ∀ {v}, Stops Text.isIndent (letters word ++ v))
    (hg : ∀ {last}, g.Prefers last b (v ++ rest) []) (hq : ∀ {last}, q.Prefers last v rest []) :
    (all [lineStart, indent, text word, g, q]).Prefers last
      (i.chars ++ (letters word ++ (b ++ v))) rest [] :=
  .andThen (u := []) (.lineStart hl) <| .andThen (.many i.all_ok hi.assoc) <|
    .andThen (.text word) (.andThen hg hq)

theorem prefers_fromSource (x : FromClause) (t : Tail) :
    (all [fromClause, statementTail]).Prefers last (x.chars ++ (t.close ++ t.lineEnd)) rest [] :=
  .andThen (prefers_fromClause x) (prefers_statementTail t)

section Statements

variable (i : Indent) (t : Tail) (hl : last = none ∨ last = some '\n')
include hl

theorem prefers_namedImport (b₁ : Gap) (names : Names) (b₂ : Gap) (source : FromClause) :
    namedImport.pattern.Prefers last (i.chars ++ ((Statement.namedImport b₁ names b₂ source).chars ++
      (t.close ++ t.lineEnd))) rest [] := by
  rw [Statement.chars]
  simp only [List.append_assoc]
  exact prefers_atLineStart i hl stops_import (prefers_gap b₁ names.stops_inBraces.assoc) <|
    .andThen (prefers_braced names) <| .andThen (prefers_gap b₂ source.stops_isBlank.assoc) <|
    prefers_fromSource source t

theorem prefers_namespaceImport (b : Gap) (star : StarName) (s : Separator) (source : FromClause) :
    namespaceImport.pattern.Prefers last (i.chars ++
      ((Statement.namespaceImport b star s source).chars ++ (t.close ++ t.lineEnd))) rest [] := by
  rw [Statement.chars]
  simp only [List.append_assoc]
  exact prefers_atLineStart i hl stops_import (prefers_gap b star.stops_isBlank.assoc) <|
    .andThen (prefers_starAs star s.stops_isNamePart.assoc) <|
    .andThen (prefers_separator s source.stops_isBlank.assoc) (prefers_fromSource source t)

theorem prefers_defaultImport (s : Separator) (name : Identifier) (clause : DefaultClause)
    (source : FromClause) :
    defaultImport.pattern.Prefers last (i.chars ++
      ((Statement.defaultImport s name clause source).chars ++ (t.close ++ t.lineEnd))) rest [] := by
  have hc : Stops (· == ',') (source.chars ++ (t.close ++ t.lineEnd ++ rest)) :=
    stops_cons.mpr (by decide)
  rw [Statement.chars]
  simp only [List.append_assoc]
  exact prefers_atLineStart i hl stops_import (prefers_separator s name.stops_isBlank.assoc) <|
    .andThen (prefers_identifier name clause.stops_isNamePart.assoc) <| .seq_assoc <|
    .andThen (prefers_clause clause source.stops_isBlank.assoc hc.assoc) (prefers_fromSource source t)

theorem prefers_listExport (b : Gap) (names : Names) (hf : NotFrom rest) :
    listExport.pattern.Prefers last (i.chars ++ ((Statement.listExport b names).chars ++
      (t.close ++ t.lineEnd))) rest [] := by
  rw [Statement.chars]
  simp only [List.append_assoc]
  exact prefers_atLineStart i hl stops_export (prefers_gap b names.stops_inBraces.assoc) <|
    .andThen (prefers_braced names) <|
    .andThen (u := []) (prefers_skip (not_reads_fromClause (t.notFrom hf))) (prefers_statementTail t)

theorem prefers_listExportFrom (b₁ : Gap) (names : Names) (b₂ : Gap) (source : FromClause) :
    listExport.pattern.Prefers last (i.chars ++
      ((Statement.listExportFrom b₁ names b₂ source).chars ++ (t.close ++ t.lineEnd))) rest [] := by
  rw [Statement.chars]
  simp only [List.append_assoc]
  rw [← List.append_assoc b₂.chars]
  exact prefers_atLineStart i hl stops_export (prefers_gap b₁ names.stops_inBraces.assoc) <|
    .andThen (prefers_braced names) <|
    .andThen (.left (.andThen (prefers_gap b₂ source.stops_isBlank) (prefers_fromClause source))) <|
    prefers_statementTail t

theorem prefers_starExport (b₁ b₂ : Gap) (source : FromClause) :
    starExport.pattern.Prefers last (i.chars ++ ((Statement.starExport b₁ b₂ source).chars ++
      (t.close ++ t.lineEnd))) rest [] := by
  have hs : b₂.chars ++ (source.chars ++ (t.close ++ t.lineEnd)) ++ rest =
      b₂.chars ++ (letters "from" ++ (source.gap.chars ++ (source.specifier.chars ++
        (t.close ++ (t.lineEnd ++ rest))))) := by
    rw [FromClause.chars]
    simp only [List.append_assoc]
  rw [Statement.chars]
  simp only [List.append_assoc, List.cons_append]
  exact prefers_atLineStart i hl stops_export (prefers_gap b₁ (stops_cons.mpr (by decide))) <|
    .andThen (u := ['*']) (.char rfl) <|
    .andThen (u := []) (prefers_skip (not_reads_asName hs)) <|
    .andThen (prefers_gap b₂ source.stops_isBlank.assoc) (prefers_fromSource source t)

theorem prefers_starExportAs (b : Gap) (star : StarName) (s : Separator) (source : FromClause) :
    starExport.pattern.Prefers last (i.chars ++ ((Statement.starExportAs b star s source).chars ++
      (t.close ++ t.lineEnd))) rest [] := by
  rw [Statement.chars, StarName.chars]
  simp only [List.append_assoc, List.cons_append]
  exact prefers_atLineStart i hl stops_export (prefers_gap b (stops_cons.mpr (by decide))) <|
    .andThen (u := ['*']) (.char rfl) <|
    .andThen (.left (prefers_asName star s.stops_isNamePart.assoc)) <|
    .andThen (.many s.isBlank source.stops_isBlank.assoc) (prefers_fromSource source t)

/-- A rule reads a statement of its kind to the end of the line. -/
theorem prefers_statement (x : Statement) (hf : x.kind = .listExport → NotFrom rest) :
    x.kind.rule.pattern.Prefers last (i.chars ++ (x.chars ++ (t.close ++ t.lineEnd))) rest [] := by
  cases x with
  | namedImport b₁ names b₂ source => exact prefers_namedImport i t hl b₁ names b₂ source
  | namespaceImport b star s source => exact prefers_namespaceImport i t hl b star s source
  | defaultImport s name clause source => exact prefers_defaultImport i t hl s name clause source
  | listExport b names => exact prefers_listExport i t hl b names (hf rfl)
  | listExportFrom b₁ names b₂ source => exact prefers_listExportFrom i t hl b₁ names b₂ source
  | starExport b₁ b₂ source => exact prefers_starExport i t hl b₁ b₂ source
  | starExportAs b star s source => exact prefers_starExportAs i t hl b star s source

end Statements

/-- The rule for bare imports reads one to the end of the line; group 1 is the statement. -/
theorem prefers_bareImport (i : Indent) (b : Gap) (x : Specifier) (t : Tail)
    (hl : last = none ∨ last = some '\n')
    (hw : w = letters "import" ++ (b.chars ++ (x.chars ++ t.close))) :
    bareImport.pattern.Prefers last (i.chars ++ (w ++ t.lineEnd)) rest
      [⟨1, w ++ (t.lineEnd ++ rest), w.length⟩] := by
  have hs : Stops Text.isIndent (w ++ t.lineEnd ++ rest) := by
    rw [hw]
    exact stops_cons.mpr (by decide)
  have hg {last : Option Char} : (group 1 (all [text "import", gap, specifier, indent,
      optional (this ';')])).Prefers last w (t.lineEnd ++ rest)
        [⟨1, w ++ (t.lineEnd ++ rest), w.length⟩] := by
    refine .group 1 ?_
    rw [hw]
    exact .andThen (.text "import") <| .andThen (prefers_gap b x.stops_isBlank.assoc) <|
      .andThen (prefers_specifier x) (prefers_close t)
  exact (Prefers.lineStart hl).seq (u := []) ((Prefers.many i.all_ok hs).seq
    (hg.seq (prefers_lineEnd t)))

/-! ## Declarations -/

/-- What a group read, as a list of numbers and texts. -/
def entry (c : Capture) : Nat × List Char := (c.number, c.start.take c.length)

theorem group?_eq {h : Hit} {n : Nat} (hn : n ≠ 0) :
    h.group? n = ((h.captures.map entry).find? (·.1 == n)).map Prod.snd := by
  rw [Hit.group?, if_neg hn, List.find?_map, Option.map_map]
  rfl

abbrev Blanks := Run Text.isBlank

/-- The star of a generator, if there is one, with the blanks behind it. -/
def starChars : Option Blanks → List Char
  | none => []
  | some b => '*' :: b.chars

theorem stops_starChars {star? : Option Blanks} {name : Identifier} :
    Stops Text.isBlank (starChars star? ++ (name.chars ++ rest)) := by
  cases star? with
  | none => exact name.stops_isBlank
  | some b => exact stops_cons.mpr (by decide)

/-- What stands between the word `function` and the name is read up to the name. -/
theorem prefers_beforeName (blanks : Blanks) (star? : Option Blanks) (name : Identifier)
    (hl : last.any Text.isWord = true)
    (h : Stops Text.isWord (blanks.chars ++ (starChars star? ++ (name.chars ++ rest)))) :
    (all [wordEdge, gap, optional (this '*'), gap]).Prefers last
      (blanks.chars ++ starChars star?) (name.chars ++ rest) [] := by
  rw [← List.append_assoc] at h
  refine .andThen (u := []) (prefers_wordEdge hl h) ?_
  refine .andThen (.many blanks.all_ok stops_starChars) ?_
  cases star? with
  | none =>
    have hn : Stops (· == '*') (name.chars ++ rest) := by
      refine stops_cons.mpr (beq_false_of_ne fun h => ?_)
      exact absurd (h ▸ name.first_ok) (by decide)
    exact .andThen (u := []) (v := []) (prefers_skip_this hn) (.many_nil name.stops_isBlank)
  | some b => exact .andThen (u := ['*']) (.left (.char rfl)) (.many b.all_ok name.stops_isBlank)

theorem prefers_functionHead (x : FunctionHead) (name : Identifier)
    (hl : last.any Text.isWord = true) :
    (all [wordEdge, gap, optional (this '*'), gap]).Prefers last x.chars (name.chars ++ rest)
      [] := by
  cases x with
  | plain s =>
    have hs : Stops Text.isWord (s.chars ++ (name.chars ++ rest)) :=
      stops_cons.mpr (Text.isWord_eq_false_of_isBlank (s.isBlank _ List.mem_cons_self))
    rw [FunctionHead.chars, ← List.append_nil s.chars]
    exact prefers_beforeName ⟨s.chars, s.isBlank⟩ none name hl hs
  | generator b₁ b₂ =>
    have hs : Stops Text.isWord (b₁.chars ++ ('*' :: b₂.chars ++ (name.chars ++ rest))) :=
      .append (fun c hc => Text.isWord_eq_false_of_isBlank (b₁.isBlank c hc))
        (stops_cons.mpr (by decide))
    exact prefers_beforeName ⟨b₁.chars, b₁.isBlank⟩ (some ⟨b₂.chars, b₂.isBlank⟩) name hl hs

theorem not_reads_word {word : String} {c : Char} {s : List Char}
    (h : (letters word).head?.any (· != c) = true) :
    ∀ u v, c :: s = u ++ v → ¬ (text word).Reads last u v := by
  intro u v hs hr
  obtain rfl := (reads_word _).mp hr
  cases hw : letters word with
  | nil => simp [hw] at h
  | cons d w =>
    rw [hw] at hs h
    exact absurd (List.cons.inj hs).1.symm (by simpa using h)

theorem not_reads_seq_word {word : String} {q : Pattern} {c : Char} {s : List Char}
    (h : (letters word).head?.any (· != c) = true) :
    ∀ u v, c :: s = u ++ v → ¬ (seq (text word) q).Reads last u v := by
  intro u v hs hr
  obtain ⟨w, y, rfl, hw, -⟩ := hr
  exact not_reads_word h w (y ++ v) (by rw [hs, List.append_assoc]) hw

theorem prefers_export {g q : Pattern} {i : Indent} {s : Separator} {caps : List Capture}
    (hw : Stops Text.isBlank (w ++ v ++ rest)) (hg : ∀ {last}, g.Prefers last w (v ++ rest) [])
    (hq : ∀ {last}, q.Prefers last v rest caps) :
    ∃ caps', (∀ {last}, last = none ∨ last = some '\n' →
        (all [lineStart, group 1 indent, text "export", separator, group 2 g, q]).Prefers last
          (i.chars ++ (letters "export" ++ (s.chars ++ (w ++ v)))) rest caps') ∧
      caps'.map entry = caps.map entry ++ [(2, w), (1, i.chars)] := by
  have hi : Stops Text.isIndent (letters "export" ++ (s.chars ++ (w ++ v)) ++ rest) :=
    stops_cons.mpr (by decide)
  refine ⟨_, fun hl => (Prefers.lineStart hl).seq (u := []) (((Prefers.many i.all_ok hi).group 1).seq
    ((Prefers.text "export").seq ((prefers_separator s hw).seq ((hg.group 2).seq hq)))), ?_⟩
  simp [entry]

/-- A rule reads a declaration of its kind up to the end of the name. Group 1 are the blanks before
it, group 2 its words and group 3 the name. -/
theorem prefers_declaration (x : Declaration) (i : Indent) (s : Separator) (name : Identifier)
    (hn : Stops isNamePart rest) :
    ∃ caps, (∀ {last}, last = none ∨ last = some '\n' →
        x.kind.rule.pattern.Prefers last (i.chars ++ (letters "export" ++ (s.chars ++
          (x.words ++ (x.beforeName ++ name.chars))))) rest caps) ∧
      caps.map entry = [(3, name.chars), (2, x.words), (1, i.chars)] := by
  have hname {last : Option Char} : (group 3 identifier).Prefers last name.chars rest
      [⟨3, name.chars ++ rest, name.chars.length⟩] := (prefers_identifier name hn).group 3
  have hentry : [(⟨3, name.chars ++ rest, name.chars.length⟩ : Capture)].map entry =
      [(3, name.chars)] := by simp [entry]
  cases x with
  | function async? head =>
    have hf {last : Option Char} : (all [text "function", wordEdge, gap, optional (this '*'),
        gap]).Prefers last (letters "function" ++ head.chars) (name.chars ++ rest) [] :=
      .andThen (.text "function") (prefers_functionHead head name rfl)
    have hg {last : Option Char} : (all [optional (all [text "async", separator]), text "function",
        wordEdge, gap, optional (this '*'), gap]).Prefers last
          (Declaration.function async? head).words (name.chars ++ rest) [] := by
      cases async? with
      | none =>
        exact .andThen (u := []) (prefers_skip (not_reads_seq_word (by decide))) hf
      | some s =>
        rw [Declaration.words, ← List.append_assoc (letters "async")]
        exact .andThen (.left (.andThen (.text "async")
          (prefers_separator s (stops_cons.mpr (by decide))))) hf
    obtain ⟨caps, h, hc⟩ :=
      prefers_export (Declaration.stops_words _).assoc hg hname
    exact ⟨caps, h, by rw [hc, hentry]; rfl⟩
  | classWord s' =>
    have hg {last : Option Char} : (all [text "class", separator]).Prefers last
        (Declaration.classWord s').words (name.chars ++ rest) [] :=
      .andThen (.text "class") (prefers_separator s' name.stops_isBlank)
    obtain ⟨caps, h, hc⟩ :=
      prefers_export (Declaration.stops_words _).assoc hg hname
    exact ⟨caps, h, by rw [hc, hentry]; rfl⟩
  | binding word s' =>
    have hg {last : Option Char} : (anyOf [text "const", text "let", text "var"]).Prefers last
        word.chars (s'.chars ++ name.chars ++ rest) [] := by
      cases word with
      | constWord => exact .left (.text "const")
      | letWord => exact .right (not_reads_word (by decide)) (.left (.text "let"))
      | varWord =>
        exact .right (not_reads_word (by decide)) (.right (not_reads_word (by decide)) (.text "var"))
    obtain ⟨caps, h, hc⟩ :=
      prefers_export (q := seq separator (group 3 identifier))
        (Declaration.stops_words (.binding word s')).assoc hg
        ((prefers_separator s' name.stops_isBlank).seq hname)
    exact ⟨caps, h, by rw [hc, List.append_nil, hentry]; rfl⟩

theorem Expression.stops_isBlank (x : Expression) : Stops Text.isBlank (x.chars ++ v) :=
  stops_cons.mpr x.first_ok

/-- The words `export default` are read up to the expression. -/
theorem prefers_defaultExport (s₁ s₂ : Separator) (hl : last.any Text.isWord = false)
    (hr : Stops Text.isBlank rest) :
    defaultExport.pattern.Prefers last (letters "export" ++ (s₁.chars ++ (letters "default" ++
      s₂.chars))) rest [] := by
  have he (v : List Char) : last.any Text.isWord ≠ (letters "export" ++ v).head?.any Text.isWord := by
    have h : (letters "export" ++ v).head?.any Text.isWord = true := rfl
    rw [hl, h]
    decide
  exact .andThen (u := []) (.wordEdge (he _)) <| .andThen (.text "export") <|
    .andThen (prefers_separator s₁ (stops_cons.mpr (by decide))) <| .andThen (.text "default") <|
    prefers_separator s₂ hr

end Workbench.Script
