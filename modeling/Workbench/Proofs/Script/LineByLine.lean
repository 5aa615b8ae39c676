import Workbench.Proofs.Lists
import Workbench.Proofs.Script.FunctionNames
import Workbench.Proofs.Script.LineRewrite

/-!
# Linking a module line by line

A module whose lines are imports, exports and other lines in their common forms is linked line by
line: every line becomes its image, in its place, and nothing else changes (`link_lines`). The rules
go over the whole text one after the other, and some of them could read on over the end of a line.
None does here, except where a name such as `$export` stands directly before a word `default`
(`NamesApart`): the rule for default exports takes the end of the name for the word `export`.

* `rewrites_lines`: a rule cuts each line of its kind and passes over all others.
* `notFrom_textAfter`: behind a list of exports the text does not go on with a `from`, at the time
  when the rule for such lists has its turn.
-/

namespace Workbench.Script

open Pattern

variable {k : Kind} {l : Line} {lines : List Line} {n : Nat} {s s' : List Char} {found : List (List Char)}

/-- The text after the first `n` rules. -/
def textAfter (n : Nat) (lines : List Line) : List Char := lines.flatMap (Line.after n)

/-! ## Turns -/

theorem Kind.eq_of_turn_eq {k k' : Kind} (h : k.turn = k'.turn) : k = k' := by
  rw [← Kind.ofNat_ctorIdx k, ← Kind.ofNat_ctorIdx k']
  exact congrArg Kind.ofNat h

theorem Kind.turn_le (k : Kind) : k.turn ≤ Kind.defaultExport.turn := by
  cases k <;> decide

theorem Kind.turn_lt (h : k ≠ .defaultExport) : k.turn < Kind.defaultExport.turn := by
  have := k.turn_le
  have := mt Kind.eq_of_turn_eq h
  omega

theorem Line.after_of_lt (hk : l.kind? = some k) (h : k.turn < n) : l.after n = l.image := by
  rw [Line.after, hk]
  exact if_pos (by simpa using h)

theorem Line.after_of_le (hk : l.kind? = some k) (h : n ≤ k.turn) : l.after n = l.source := by
  rw [Line.after, hk]
  exact if_neg (by simpa using h)

/-- A line changes only at the turn of its own kind. -/
theorem Line.after_succ (hk : l.kind? ≠ some k) : l.after (k.turn + 1) = l.after k.turn := by
  cases hl : l.kind? with
  | none => rw [Line.after, Line.after, hl, Option.any_none, Option.any_none]
  | some k' =>
    have hne : k'.turn ≠ k.turn := by
      intro h
      rw [Kind.eq_of_turn_eq h] at hl
      exact hk hl
    by_cases h : k'.turn < k.turn
    · rw [after_of_lt hl h, after_of_lt hl (by omega)]
    · rw [after_of_le hl (by omega), after_of_le hl (by omega)]

theorem textAfter_zero (lines : List Line) : textAfter 0 lines = lines.flatMap Line.source := by
  have h (l : Line) : l.after 0 = l.source := by
    rw [Line.after, if_neg]
    cases l.kind? <;> simp
  exact List.flatMap_congr fun l _ => h l

theorem textAfter_all (lines : List Line) :
    textAfter (Kind.defaultExport.turn + 1) lines = lines.flatMap Line.image := by
  have h (l : Line) : l.after (Kind.defaultExport.turn + 1) = l.image := by
    cases hk : l.kind? with
    | some k => exact Line.after_of_lt hk (Nat.lt_succ_of_le k.turn_le)
    | none =>
      rw [Line.after, hk]
      cases l with
      | plain x => rfl
      | _ => exact absurd hk (by simp [Line.kind?])
  exact List.flatMap_congr fun l _ => h l

/-! ## The text behind a list of exports -/

theorem notFrom_cons {c : Char} (hb : Text.isBlank c = false) (h : 'f' ≠ c) : NotFrom (c :: s) := by
  rw [NotFrom, List.dropWhile_cons_of_neg (by simp [hb])]
  exact not_prefix_cons h

theorem Indent.notFrom_append (i : Indent) : NotFrom (i.chars ++ s) ↔ NotFrom s :=
  Script.notFrom_append fun c hc => Text.isBlank_of_isIndent (i.all_ok c hc)

theorem PlainText.notFrom (x : PlainText) (h : NotFrom s) : NotFrom (x.run.chars ++ '\n' :: s) := by
  rw [NotFrom, List.dropWhile_append]
  split
  · exact notFrom_newline.mpr h
  · exact fun hp => x.not_from (prefix_of_prefix_newline (by decide) hp)

/-- The word `function` begins like `from`, but goes on differently. -/
theorem Declaration.notFrom (x : Declaration) : NotFrom (x.words ++ s) := by
  rcases x with ⟨_ | s', head⟩ | s' | ⟨_ | _ | _, s'⟩
  · have hs : Stops Text.isBlank (letters "function" ++ (head.chars ++ s)) :=
      stops_cons.mpr (by decide)
    have hd := dropWhile_run (w := []) (by simp) hs
    rw [Declaration.words, NotFrom, List.append_assoc]
    rw [List.nil_append] at hd
    rw [hd]
    exact not_prefix_append (by decide) (by decide)
  all_goals exact notFrom_cons (by decide) (by decide)

theorem Line.notFrom_source (l : Line) (h : NotFrom s) : NotFrom (l.source ++ s) := by
  cases l with
  | plain x =>
    rw [source, List.append_assoc]
    exact x.notFrom h
  | removed i x t =>
    rw [source, List.append_assoc, i.notFrom_append]
    cases x <;> exact notFrom_cons (by decide) (by decide)
  | _ =>
    rw [source, List.append_assoc, Indent.notFrom_append]
    exact notFrom_cons (by decide) (by decide)

theorem Line.notFrom_after (hn : n ≤ Kind.defaultExport.turn) (l : Line) (h : NotFrom s) :
    NotFrom (l.after n ++ s) := by
  by_cases hl : l.kind?.any (·.turn < n)
  · rw [Line.after, if_pos hl]
    cases l with
    | removed i x t => exact h
    | bareImport i b x t => exact h
    | declared i sep x name r =>
      rw [image, List.append_assoc, List.append_assoc, i.notFrom_append]
      exact x.notFrom
    | exportDefault i s₁ s₂ x =>
      have : Kind.defaultExport.turn < n := by simpa [kind?] using hl
      omega
    | plain x => exact absurd hl (by simp [kind?])
  · rw [Line.after, if_neg hl]
    exact l.notFrom_source h

theorem notFrom_textAfter (hn : n ≤ Kind.defaultExport.turn) (lines : List Line) :
    NotFrom (textAfter n lines) := by
  induction lines with
  | nil =>
    intro h
    exact absurd (List.prefix_nil.mp h) (by decide)
  | cons l lines ih => exact l.notFrom_after hn ih

/-! ## One line -/

/-- What a line adds when the rule for the kind has its turn. -/
def Line.foundBy (k : Kind) (l : Line) : List (List Char) :=
  if l.kind? = some k then l.found else []

theorem rewrites_line_of_ne (hl : l.kind? ≠ some k) (h : Rewrites k s s' found)
    (hd : k = .defaultExport → l.looksDefault s = false) :
    Rewrites k (l.after k.turn ++ s) (l.after k.turn ++ s') found := by
  by_cases hk : k = .defaultExport
  · subst hk
    cases l with
    | removed i x t =>
      rw [Line.after_of_lt rfl (Kind.turn_lt x.rule_eq.1)]
      exact h
    | bareImport i b x t =>
      rw [Line.after_of_lt rfl (Kind.turn_lt (by decide))]
      exact h
    | declared i sep x name r =>
      have hi : (Line.declared i sep x name r).image = i.chars ++ (x.words ++
          (x.beforeNameImage ++ (name.chars ++ r.run.chars))) ++ ['\n'] := by
        rw [Line.image]
        simp only [List.append_assoc]
      have hline := (Line.declared i sep x name r).isLine_image
      rw [Line.after_of_lt rfl (Kind.turn_lt x.kind_ne)]
      rw [hi] at hline ⊢
      exact h.pass_quiet ((hline (by simp)).newline_not_mem (List.cons_ne_nil _ _))
        (x.quiet_append i (quiet_declared name r (hd rfl)))
    | exportDefault i s₁ s₂ x => exact absurd rfl hl
    | plain x => exact h.pass_quiet (x.run.not_mem rfl) (quiet_of_lacks x.lacks_export)
  · by_cases hne : l.after k.turn = []
    · rw [hne]
      exact h
    · exact h.pass_kind hk (Line.isLine_after hne) (Line.kindAt?_after k.turn_le hl hne)

theorem rewrites_line_of_eq (hl : l.kind? = some k) (h : Rewrites k s s' found)
    (hf : k = .listExport → NotFrom s) :
    Rewrites k (l.source ++ s) (l.image ++ s') (l.found ++ found) := by
  cases l with
  | removed i x t =>
    obtain rfl := Option.some.inj hl
    exact rewrites_removed i x t h hf
  | bareImport i b x t =>
    obtain rfl := Option.some.inj hl
    exact rewrites_bareImport i b x t h
  | declared i sep x name r =>
    obtain rfl := Option.some.inj hl
    exact rewrites_declared i sep x name r h
  | exportDefault i s₁ s₂ x =>
    obtain rfl := Option.some.inj hl
    exact rewrites_exportDefault i s₁ s₂ x h
  | plain x => exact absurd hl (by simp [Line.kind?])

/-! ## One rule -/

/-- No name and what follows it look like a default export when the rule for those has its turn. -/
def NamesApart : List Line → Prop
  | [] => True
  | l :: lines =>
    l.looksDefault (textAfter Kind.defaultExport.turn lines) = false ∧ NamesApart lines

instance decidableNamesApart : (lines : List Line) → Decidable (NamesApart lines)
  | [] => inferInstanceAs (Decidable True)
  | l :: lines =>
    have := decidableNamesApart lines
    inferInstanceAs (Decidable
      (l.looksDefault (textAfter Kind.defaultExport.turn lines) = false ∧ NamesApart lines))

/-- The rule for a kind replaces each line of its kind by its image and leaves the other lines as
they are at its turn. -/
theorem rewrites_lines (k : Kind) {lines : List Line} (h : NamesApart lines) :
    Rewrites k (textAfter k.turn lines) (textAfter (k.turn + 1) lines)
      (lines.flatMap (Line.foundBy k)) := by
  induction lines with
  | nil => exact rewrites_nil
  | cons l lines ih =>
    show Rewrites k (l.after k.turn ++ _) (l.after (k.turn + 1) ++ _) (l.foundBy k ++ _)
    by_cases hl : l.kind? = some k
    · rw [Line.after_of_le hl (Nat.le_refl _), Line.after_of_lt hl (Nat.lt_succ_self _),
        Line.foundBy, if_pos hl]
      exact rewrites_line_of_eq hl (ih h.2) fun _ => notFrom_textAfter k.turn_le lines
    · rw [Line.after_succ hl, Line.foundBy, if_neg hl]
      refine rewrites_line_of_ne hl (ih h.2) fun hk => ?_
      rw [hk]
      exact h.1

theorem Kind.rule_mem_passes (k : Kind) : k.rule ∈ passes := by
  cases k <;> simp [Kind.rule, passes, importRemovals, declarations, exportRemovals]

/-- What the lines of a kind add, in order. -/
def Kind.findings (k : Kind) (lines : List Line) : List String :=
  (lines.flatMap (Line.foundBy k)).map String.ofList

theorem Kind.cut_textAfter (k : Kind) (h : NamesApart lines) :
    (k.rule.pattern.cut (textAfter k.turn lines)).flatMap (Piece.write k.rule.template.expand) =
        textAfter (k.turn + 1) lines ∧
      ((k.rule.pattern.cut (textAfter k.turn lines)).filterMap Piece.hit?).filterMap
        (·.group? k.group) = lines.flatMap (Line.foundBy k) := by
  obtain ⟨ps, hc, hw, hf⟩ := rewrites_lines k h none (Or.inl rfl)
  rw [hc.eq_cut (passes_shape k.rule k.rule_mem_passes).1]
  exact ⟨hw, hf⟩

theorem Kind.apply_textAfter (k : Kind) (h : NamesApart lines) :
    k.rule.apply (String.ofList (textAfter k.turn lines)) =
      String.ofList (textAfter (k.turn + 1) lines) := by
  rw [← String.toList_inj, Rule.apply, toList_replace, String.toList_ofList, String.toList_ofList]
  exact (k.cut_textAfter h).1

theorem Kind.collect_textAfter (k : Kind) (h : NamesApart lines) :
    k.rule.collect k.group (String.ofList (textAfter k.turn lines)) = k.findings lines := by
  rw [Kind.findings, ← (k.cut_textAfter h).2, List.map_filterMap, Rule.collect, collect, hits,
    String.toList_ofList]

/-! ## All rules -/

theorem applyAll_textAfter (kinds : List Kind) (hl : NamesApart lines) :
    ∀ n, kinds.map Kind.turn = List.range' n kinds.length →
      applyAll (kinds.map Kind.rule) (String.ofList (textAfter n lines)) =
        String.ofList (textAfter (n + kinds.length) lines) := by
  induction kinds with
  | nil => intro n _; rfl
  | cons k kinds ih =>
    intro n h
    obtain ⟨rfl, h⟩ := List.cons.inj h
    rw [applyAll, List.map_cons, List.foldl_cons, ← applyAll, k.apply_textAfter hl, ih _ h,
      List.length_cons]
    congr 2
    omega

theorem declareAll_textAfter (kinds : List Kind) (hl : NamesApart lines)
    (hg : ∀ k ∈ kinds, k.group = 3) :
    ∀ n, kinds.map Kind.turn = List.range' n kinds.length →
      (declareAll (kinds.map Kind.rule) (String.ofList (textAfter n lines))).1 =
        kinds.flatMap (·.findings lines) := by
  induction kinds with
  | nil => intro n _; rfl
  | cons k kinds ih =>
    intro n h
    obtain ⟨rfl, h⟩ := List.cons.inj h
    have hk := hg k List.mem_cons_self
    rw [List.map_cons, declareAll, ← hk, k.collect_textAfter hl, k.apply_textAfter hl,
      List.flatMap_cons, ih (fun k' h' => hg k' (List.mem_cons_of_mem k h')) _ h]

/-! ## The module -/

/-- The module of these lines. -/
def sourceOf (name : String) (lines : List Line) : Source :=
  ⟨name, String.ofList (lines.flatMap Line.source)⟩

variable {name : String}

theorem text_sourceOf : (sourceOf name lines).text = String.ofList (textAfter 0 lines) := by
  rw [textAfter_zero]
  rfl

theorem body_sourceOf (h : NamesApart lines) :
    (sourceOf name lines).body = String.ofList (lines.flatMap Line.image) := by
  rw [body_eq, text_sourceOf, ← textAfter_all]
  exact applyAll_textAfter [.bareImport, .namedImport, .namespaceImport, .defaultImport,
    .exportedFunction, .exportedClass, .exportedBinding, .listExport, .starExport, .defaultExport]
    h 0 rfl

theorem bareImports_sourceOf (h : NamesApart lines) :
    (sourceOf name lines).bareImports = Kind.bareImport.findings lines := by
  rw [Source.bareImports, text_sourceOf]
  exact Kind.bareImport.collect_textAfter h

/-- The names that the lines declare for other modules: exported functions, then classes, then
bindings, and then every function that is declared at the start of a line. -/
def namesOf (lines : List Line) : List String :=
  [Kind.exportedFunction, .exportedClass, .exportedBinding].flatMap (·.findings lines) ++
    (functionNames (lines.flatMap Line.image)).map String.ofList

theorem names_sourceOf (h : NamesApart lines) : (sourceOf name lines).names = namesOf lines := by
  have hi : applyAll importRemovals (String.ofList (textAfter 0 lines)) =
      String.ofList (textAfter 4 lines) :=
    applyAll_textAfter [.bareImport, .namedImport, .namespaceImport, .defaultImport] h 0 rfl
  have hd : (declareAll declarations (String.ofList (textAfter 4 lines))).1 =
      [Kind.exportedFunction, .exportedClass, .exportedBinding].flatMap (·.findings lines) :=
    declareAll_textAfter [.exportedFunction, .exportedClass, .exportedBinding] h (by decide) 4 rfl
  rw [Source.names, body_sourceOf h, text_sourceOf, hi, hd, collect_declaredFunction, namesOf]

/-- A module of such lines is linked line by line. Its bare imports are kept apart, every line
stands in the script as its image, and each name that the lines declare is put on the global object
once. -/
theorem link_lines (name : String) (lines : List Line) (h : NamesApart lines) :
    link [sourceOf name lines] =
        { hoisted := (Kind.bareImport.findings lines).eraseDups
          script := "// --- " ++ name ++ " ---\n" ++
            Text.trimEnd (String.ofList (lines.flatMap Line.image)) ++ "\n\n" ++
              globalBlock (namesOf lines).eraseDups
          names := (namesOf lines).eraseDups } ∧
      (namesOf lines).eraseDups.Nodup := by
  refine ⟨?_, nodup_eraseDups _⟩
  simp only [link, List.flatMap_cons, List.flatMap_nil, List.append_nil, List.map_cons,
    List.map_nil, String.join_cons, String.join_nil, String.append_empty]
  rw [names_sourceOf h, bareImports_sourceOf h, Source.block, body_sourceOf h]
  rfl

def space : Separator := ⟨' ', by decide, .empty _⟩

def blank : Gap := .of " " (by decide)

/-- A module with a line of each kind. -/
def everyLine : List Line :=
  [ .removed (.empty _) (.namedImport blank (.of " a " (by decide)) blank
      ⟨blank, ⟨'"', by decide, 'm', by decide, .empty _, '"', by decide⟩⟩)
      ⟨.empty _, some (.empty _)⟩,
    .bareImport (.empty _) blank ⟨'\'', by decide, 's', by decide, .empty _, '\'', by decide⟩
      ⟨.empty _, some (.empty _)⟩,
    .declared (.empty _) space (.binding .constWord space)
      ⟨'$', by decide, .of "export" (by decide)⟩
      ⟨.of " = 1;" (by decide), stops_cons.mpr (by decide), by decide +kernel⟩,
    .declared (.empty _) space (.function (some space) (.plain space))
      ⟨'r', by decide, .of "un" (by decide)⟩
      ⟨.of "() \x7b\x7d" (by decide), stops_cons.mpr (by decide), by decide +kernel⟩,
    .exportDefault (.empty _) space space
      ⟨'r', by decide, .of "un;" (by decide), by decide +kernel⟩,
    .plain ⟨.of "function help() \x7b\x7d" (by decide), by decide +kernel, by decide +kernel,
      by decide⟩ ]

def everyLineText : String :=
  "import \x7b a \x7d from \"m\";\nimport 's';\nexport const $export = 1;\n" ++
    "export async function run() \x7b\x7d\nexport default run;\nfunction help() \x7b\x7d\n"

def everyLineBlock : String :=
  "// --- m.mjs ---\nconst $export = 1;\nasync function run() \x7b\x7d\nrun;\n" ++
    "function help() \x7b\x7d\n\n"

theorem link_lines_everyLine :
    NamesApart everyLine ∧
      link [⟨"m.mjs", everyLineText⟩] =
        { hoisted := ["import 's';"]
          script := everyLineBlock ++ globalBlock ["run", "$export", "help"]
          names := ["run", "$export", "help"] } := by
  have h : NamesApart everyLine := by decide +kernel
  have ht : String.ofList (everyLine.flatMap Line.source) = everyLineText := by decide +kernel
  have hb : (Kind.bareImport.findings everyLine).eraseDups = ["import 's';"] := by decide +kernel
  have hn : (namesOf everyLine).eraseDups = ["run", "$export", "help"] := by decide +kernel
  have hi : "// --- " ++ "m.mjs" ++ " ---\n" ++
      Text.trimEnd (String.ofList (everyLine.flatMap Line.image)) ++ "\n\n" = everyLineBlock := by
    decide +kernel
  have hl := (link_lines "m.mjs" everyLine h).1
  rw [sourceOf, ht, hb, hi, hn] at hl
  exact ⟨h, hl⟩

/-- Statements in less common forms are left as they are: an import of a name that begins with a
letter beyond ASCII, and one with a comment between its words. -/
theorem body_of_uncommon_form :
    (⟨"m.mjs", "import é from 'a';\n"⟩ : Source).body = "import é from 'a';\n" ∧
      (⟨"m.mjs", "import a /* b */ from 'a';\n"⟩ : Source).body =
        "import a /* b */ from 'a';\n" := by
  decide +kernel

end Workbench.Script
