import Workbench.Proofs.Script.StatementKind

/-!
# The shape of a line while the rules are applied

The rules are applied in turn, and a line is rewritten when the rule for its kind has its turn:
`Line.after n` is the line after the first `n` rules. At every time it is empty or ends with its only
newline (`isLine_after`), and before its turn the kind of statement at its beginning is its own
(`kindAt?_after`).
-/

namespace Workbench.Script

open Pattern

variable {rest s t v w : List Char}

/-! ## Newlines -/

theorem ne_of_ok {ok : Char → Bool} {c d : Char} (hd : ok d = true) (hc : ok c = false) : c ≠ d := by
  rintro rfl
  exact Bool.false_ne_true (hc.symm.trans hd)

theorem Run.not_mem {ok : Char → Bool} {c : Char} (r : Run ok) (h : ok c = false) :
    c ∉ r.chars := fun hm => ne_of_ok (r.all_ok c hm) h rfl

theorem Separator.not_mem {c : Char} (s : Separator) (h : isInlineBlank c = false) : c ∉ s.chars :=
  List.not_mem_cons_of_ne_of_not_mem (ne_of_ok s.first_ok h) (s.more.not_mem h)

theorem Identifier.newline_not_mem (x : Identifier) : '\n' ∉ x.chars :=
  List.not_mem_cons_of_ne_of_not_mem (ne_of_ok x.first_ok (by decide))
    (x.more.not_mem (by decide))

theorem Specifier.newline_not_mem (x : Specifier) : '\n' ∉ x.chars := by
  have h₁ : '\n' ≠ x.opening := ne_of_ok x.opening_ok (by decide)
  have h₂ : '\n' ≠ x.first := ne_of_ok x.first_ok (by decide)
  have h₃ : '\n' ∉ x.more.chars := x.more.not_mem (by decide)
  have h₄ : '\n' ≠ x.closing := ne_of_ok x.closing_ok (by decide)
  simp [Specifier.chars, h₁, h₂, h₃, h₄]

theorem Run.newline_not_mem_inBraces (names : Names) : '\n' ∉ names.inBraces := by
  have h : '\n' ∉ names.chars := names.not_mem (by decide)
  simp [Run.inBraces, h]

theorem Gap.newline_not_mem (g : Gap) : '\n' ∉ g.chars := Run.not_mem g (by decide)

theorem Separator.newline_not_mem (s : Separator) : '\n' ∉ s.chars := s.not_mem (by decide)

theorem StarName.newline_not_mem (x : StarName) : '\n' ∉ x.chars :=
  List.not_mem_cons_of_ne_of_not_mem (by decide) <|
    List.not_mem_append (Gap.newline_not_mem _) <|
    List.not_mem_append (by decide) <|
    List.not_mem_append (Separator.newline_not_mem _) (Identifier.newline_not_mem _)

theorem FromClause.newline_not_mem (x : FromClause) : '\n' ∉ x.chars :=
  List.not_mem_append (by decide) <|
    List.not_mem_append (Gap.newline_not_mem _) (Specifier.newline_not_mem _)

theorem DefaultClause.newline_not_mem (x : DefaultClause) : '\n' ∉ x.chars := by
  cases x <;>
    simp [DefaultClause.chars, Gap.newline_not_mem, Separator.newline_not_mem,
      Run.newline_not_mem_inBraces, StarName.newline_not_mem]

theorem Statement.newline_not_mem (x : Statement) : '\n' ∉ x.chars := by
  have h₁ : '\n' ∉ letters "import" := by decide
  have h₂ : '\n' ∉ letters "export" := by decide
  have h₃ : '\n' ≠ '*' := by decide
  cases x with
  | namedImport b₁ names b₂ source =>
    exact List.not_mem_append h₁ (List.not_mem_append b₁.newline_not_mem
      (List.not_mem_append names.newline_not_mem_inBraces
        (List.not_mem_append b₂.newline_not_mem source.newline_not_mem)))
  | namespaceImport b star s source =>
    exact List.not_mem_append h₁ (List.not_mem_append b.newline_not_mem
      (List.not_mem_append star.newline_not_mem
        (List.not_mem_append s.newline_not_mem source.newline_not_mem)))
  | defaultImport s name clause source =>
    exact List.not_mem_append h₁ (List.not_mem_append s.newline_not_mem
      (List.not_mem_append name.newline_not_mem
        (List.not_mem_append clause.newline_not_mem source.newline_not_mem)))
  | listExport b names =>
    exact List.not_mem_append h₂ (List.not_mem_append b.newline_not_mem
      names.newline_not_mem_inBraces)
  | listExportFrom b₁ names b₂ source =>
    exact List.not_mem_append h₂ (List.not_mem_append b₁.newline_not_mem
      (List.not_mem_append names.newline_not_mem_inBraces
        (List.not_mem_append b₂.newline_not_mem source.newline_not_mem)))
  | starExport b₁ b₂ source =>
    exact List.not_mem_append h₂ (List.not_mem_append b₁.newline_not_mem
      (List.not_mem_cons_of_ne_of_not_mem h₃
        (List.not_mem_append b₂.newline_not_mem source.newline_not_mem)))
  | starExportAs b star s source =>
    exact List.not_mem_append h₂ (List.not_mem_append b.newline_not_mem
      (List.not_mem_append star.newline_not_mem
        (List.not_mem_append s.newline_not_mem source.newline_not_mem)))

theorem Tail.newline_not_mem_close (t : Tail) : '\n' ∉ t.close := by
  have h : '\n' ∉ t.before.chars := t.before.not_mem (by decide)
  rw [Tail.close]
  split <;> simp [h]

theorem FunctionHead.not_mem {c : Char} (x : FunctionHead) (h : isInlineBlank c = false)
    (hc : c ≠ '*') : c ∉ x.chars := by
  cases x with
  | plain s => exact s.not_mem h
  | generator b₁ b₂ =>
    exact List.not_mem_append (b₁.not_mem h)
      (List.not_mem_cons_of_ne_of_not_mem hc (b₂.not_mem h))

theorem Declaration.newline_not_mem_words (x : Declaration) : '\n' ∉ x.words := by
  have h₁ : '\n' ∉ letters "function" := by decide
  have h₂ : '\n' ∉ letters "async" := by decide
  have h₃ : '\n' ∉ letters "class" := by decide
  rcases x with ⟨_ | s, head⟩ | s | ⟨word, s⟩
  · exact List.not_mem_append h₁ (head.not_mem (by decide) (by decide))
  · exact List.not_mem_append h₂ (List.not_mem_append s.newline_not_mem
      (List.not_mem_append h₁ (head.not_mem (by decide) (by decide))))
  · exact List.not_mem_append h₃ s.newline_not_mem
  · have h : '\n' ∉ word.chars := by cases word <;> decide
    exact h

theorem Declaration.newline_not_mem_beforeName (x : Declaration) :
    '\n' ∉ x.beforeName ∧ '\n' ∉ x.beforeNameImage := by
  have h : '\n' ∉ [' '] := by decide
  rcases x with ⟨_, _⟩ | _ | ⟨_, s⟩
  · exact ⟨List.not_mem_nil, List.not_mem_nil⟩
  · exact ⟨List.not_mem_nil, List.not_mem_nil⟩
  · exact ⟨s.newline_not_mem, h⟩

/-- The text ends with its only newline. -/
def IsLine (s : List Char) : Prop := ∃ u, s = u ++ ['\n'] ∧ '\n' ∉ u

theorem IsLine.append (hw : '\n' ∉ w) (hs : IsLine s) : IsLine (w ++ s) := by
  obtain ⟨u, rfl, hu⟩ := hs
  exact ⟨w ++ u, (List.append_assoc w u _).symm, List.not_mem_append hw hu⟩

theorem isLine_of_ok : IsLine ['\n'] := ⟨[], rfl, List.not_mem_nil⟩

theorem Tail.isLine_lineEnd (t : Tail) : IsLine t.lineEnd := by
  refine .append ?_ isLine_of_ok
  cases t.behind? with
  | none => exact List.not_mem_nil
  | some b => exact b.not_mem (by decide)

theorem Expression.newline_not_mem (x : Expression) : '\n' ∉ x.chars := by
  refine List.not_mem_cons_of_ne_of_not_mem ?_ (x.more.not_mem (by decide))
  intro h
  exact absurd (h ▸ x.first_ok) (by decide)

theorem Line.isLine_source (l : Line) : IsLine l.source := by
  have h₁ : '\n' ∉ letters "import" := by decide
  have h₂ : '\n' ∉ letters "export" := by decide
  have h₃ : '\n' ∉ letters "default" := by decide
  have hi (i : Indent) : '\n' ∉ i.chars := i.not_mem (by decide)
  have hr (r : Run isInline) : '\n' ∉ r.chars := r.not_mem (by decide)
  cases l with
  | removed i x t =>
    exact .append (hi i) (.append x.newline_not_mem (.append t.newline_not_mem_close
      t.isLine_lineEnd))
  | bareImport i b x t =>
    exact .append (hi i) (.append h₁ (.append b.newline_not_mem (.append x.newline_not_mem
      (.append t.newline_not_mem_close t.isLine_lineEnd))))
  | declared i s d x r =>
    exact .append (hi i) (.append h₂ (.append s.newline_not_mem (.append d.newline_not_mem_words
      (.append d.newline_not_mem_beforeName.1 (.append x.newline_not_mem
        (.append (hr r.run) isLine_of_ok))))))
  | exportDefault i s₁ s₂ x =>
    exact .append (hi i) (.append h₂ (.append s₁.newline_not_mem (.append h₃
      (.append s₂.newline_not_mem (.append x.newline_not_mem isLine_of_ok)))))
  | plain x => exact .append (hr x.run) isLine_of_ok

theorem Line.isLine_image (l : Line) (h : l.image ≠ []) : IsLine l.image := by
  have hi (i : Indent) : '\n' ∉ i.chars := i.not_mem (by decide)
  have hr (r : Run isInline) : '\n' ∉ r.chars := r.not_mem (by decide)
  cases l with
  | removed i x t => exact absurd rfl h
  | bareImport i b x t => exact absurd rfl h
  | declared i s d x r =>
    exact .append (hi i) (.append d.newline_not_mem_words
      (.append d.newline_not_mem_beforeName.2 (.append x.newline_not_mem
        (.append (hr r.run) isLine_of_ok))))
  | exportDefault i s₁ s₂ x => exact .append (hi i) (.append x.newline_not_mem isLine_of_ok)
  | plain x => exact .append (hr x.run) isLine_of_ok

/-! ## Kinds -/

theorem Gap.isBlank (g : Gap) : ∀ c ∈ g.chars, Text.isBlank c = true := by
  intro c hc
  exact (Bool.and_eq_true _ _ ▸ g.all_ok c hc).1

theorem Separator.isBlank (s : Separator) : ∀ c ∈ s.chars, Text.isBlank c = true :=
  List.forall_mem_cons.mpr ⟨(Bool.and_eq_true _ _ ▸ s.first_ok).1, s.more.isBlank⟩

theorem Statement.kindAt?_eq (x : Statement) (i : Indent) :
    kindAt? (i.chars ++ (x.chars ++ rest)) = some x.kind := by
  have hb : Text.isBlank '\x7b' = false := by decide
  have hs : Text.isBlank '*' = false := by decide
  cases x with
  | namedImport b₁ names b₂ source =>
    rw [Statement.chars, Run.inBraces]
    simp only [List.append_assoc, List.cons_append]
    exact kindAt?_import i.all_ok b₁.isBlank (stops_cons.mpr hb)
  | namespaceImport b star s source =>
    rw [Statement.chars, StarName.chars]
    simp only [List.append_assoc, List.cons_append]
    exact kindAt?_import i.all_ok b.isBlank (stops_cons.mpr hs)
  | defaultImport s name clause source =>
    rw [Statement.chars, Identifier.chars]
    simp only [List.append_assoc, List.cons_append]
    rw [kindAt?_import i.all_ok s.isBlank
      (stops_cons.mpr (isBlank_eq_false_of_isNameStart name.first_ok))]
    exact importKind?_of_isNameStart name.first_ok
  | listExport b names =>
    rw [Statement.chars, Run.inBraces]
    simp only [List.append_assoc, List.cons_append]
    exact kindAt?_export i.all_ok b.isBlank (stops_cons.mpr hb)
  | listExportFrom b₁ names b₂ source =>
    rw [Statement.chars, Run.inBraces]
    simp only [List.append_assoc, List.cons_append]
    exact kindAt?_export i.all_ok b₁.isBlank (stops_cons.mpr hb)
  | starExport b₁ b₂ source =>
    rw [Statement.chars]
    simp only [List.append_assoc, List.cons_append]
    exact kindAt?_export i.all_ok b₁.isBlank (stops_cons.mpr hs)
  | starExportAs b star s source =>
    rw [Statement.chars, StarName.chars]
    simp only [List.append_assoc, List.cons_append]
    exact kindAt?_export i.all_ok b.isBlank (stops_cons.mpr hs)

theorem Declaration.stops_words (x : Declaration) : Stops Text.isBlank (x.words ++ v) := by
  rcases x with ⟨_ | s, head⟩ | s | ⟨_ | _ | _, s⟩
  all_goals exact stops_cons.mpr (by decide)

theorem Declaration.exportKind?_eq (x : Declaration) :
    exportKind? (x.words ++ v) = some x.kind := by
  rcases x with ⟨_ | s, head⟩ | s | ⟨_ | _ | _, s⟩
  all_goals rfl

/-- A word without a newline does not run across the end of a line. -/
theorem prefix_of_prefix_newline (hw : '\n' ∉ w) (h : w <+: v ++ '\n' :: rest) : w <+: v := by
  obtain ⟨x, hx⟩ := h
  rcases List.append_eq_append_iff.mp hx with ⟨a, rfl, -⟩ | ⟨a, rfl, ha⟩
  · exact List.prefix_append w a
  · cases a with
    | nil => simp
    | cons c a =>
      obtain ⟨rfl, -⟩ := List.cons.inj ha
      exact absurd (List.mem_append_right v List.mem_cons_self) hw

theorem PlainText.kindAt?_eq (x : PlainText) : kindAt? (x.run.chars ++ '\n' :: rest) = none := by
  have h : x.run.chars =
      x.run.chars.takeWhile Text.isIndent ++ x.run.chars.dropWhile Text.isIndent :=
    List.takeWhile_append_dropWhile.symm
  have hlacks {word : List Char} (hn : '\n' ∉ word) (hl : ¬ word <:+: x.run.chars) :
      ¬ word <+: x.run.chars.dropWhile Text.isIndent ++ '\n' :: rest := by
    intro hp
    refine hl ?_
    rw [h]
    exact (prefix_of_prefix_newline hn hp).isInfix.trans (List.suffix_append _ _).isInfix
  rw [h, List.append_assoc]
  refine kindAt?_eq_none ?_ ?_ (hlacks (by decide) x.lacks_import)
    (hlacks (by decide) x.lacks_export)
  · exact List.all_eq_true.mp List.all_takeWhile
  · cases hd : x.run.chars.dropWhile Text.isIndent with
    | nil => exact stops_cons.mpr (by decide)
    | cons c v =>
      have hs := stops_dropWhile Text.isIndent x.run.chars
      rw [hd] at hs
      exact stops_cons.mpr (stops_cons.mp hs)

theorem Line.kindAt?_source (l : Line) : kindAt? (l.source ++ rest) = l.kind? := by
  cases l with
  | removed i x t =>
    rw [source, List.append_assoc, List.append_assoc]
    exact x.kindAt?_eq i
  | bareImport i b x t =>
    rw [source, Specifier.chars]
    simp only [List.append_assoc, List.cons_append]
    have hq := isBlank_eq_false_of_isQuote x.opening_ok
    rw [kindAt?_import i.all_ok b.isBlank (stops_cons.mpr hq), importKind?, if_pos x.opening_ok]
    rfl
  | declared i s d x r =>
    rw [source]
    simp only [List.append_assoc]
    rw [kindAt?_export i.all_ok s.isBlank d.stops_words, d.exportKind?_eq]
    rfl
  | exportDefault i s₁ s₂ x =>
    rw [source]
    simp only [List.append_assoc]
    have hd (v : List Char) : Stops Text.isBlank (letters "default" ++ v) :=
      stops_cons.mpr (by decide)
    rw [kindAt?_export i.all_ok s₁.isBlank (hd _)]
    rfl
  | plain x =>
    rw [source, List.append_assoc]
    exact x.kindAt?_eq

/-- The words of a declaration begin like neither an import nor an export. -/
theorem Declaration.words_eq_cons (x : Declaration) :
    ∃ c w, x.words = c :: w ∧ Text.isIndent c = false ∧ 'i' ≠ c ∧ 'e' ≠ c := by
  rcases x with ⟨_ | s, head⟩ | s | ⟨_ | _ | _, s⟩
  all_goals exact ⟨_, _, rfl, by decide⟩

theorem not_prefix_cons {c d : Char} (h : c ≠ d) : ¬ c :: w <+: d :: v :=
  fun hp => h (List.cons_prefix_cons.mp hp).1

theorem Line.kindAt?_image_declared {i : Indent} {s : Separator} {d : Declaration} {x : Identifier}
    {r : Rest} : kindAt? ((declared i s d x r).image ++ rest) = none := by
  obtain ⟨c, w, hw, h, h₁, h₂⟩ := d.words_eq_cons
  rw [image, hw, List.append_assoc]
  exact kindAt?_eq_none i.all_ok (stops_cons.mpr h) (not_prefix_cons h₁) (not_prefix_cons h₂)

/-! ## Taking turns -/

/-- The line after the first `n` rules were applied. -/
def Line.after (n : Nat) (l : Line) : List Char :=
  if l.kind?.any (·.turn < n) then l.image else l.source

theorem Line.isLine_after {n : Nat} {l : Line} (h : l.after n ≠ []) : IsLine (l.after n) := by
  rw [Line.after] at h ⊢
  split
  · rename_i hn
    rw [if_pos hn] at h
    exact l.isLine_image h
  · exact l.isLine_source

/-- While the anchored rules have their turns, no line looks like one of a kind that is not its
own. -/
theorem Line.kindAt?_after {n : Nat} {l : Line} {k : Kind} (hn : n ≤ Kind.defaultExport.turn)
    (hk : l.kind? ≠ some k) (h : l.after n ≠ []) : kindAt? (l.after n ++ rest) ≠ some k := by
  rw [Line.after] at h ⊢
  split
  · rename_i hl
    rw [if_pos hl] at h
    cases l with
    | removed i x t => exact absurd rfl h
    | bareImport i b x t => exact absurd rfl h
    | declared i s d x r => simp [kindAt?_image_declared]
    | exportDefault i s₁ s₂ x =>
      have : Kind.defaultExport.turn < n := by simpa [kind?] using hl
      omega
    | plain x => exact absurd hl (by simp [kind?])
  · rwa [kindAt?_source]

end Workbench.Script
