import Workbench.Proofs.Pattern.Cut
import Workbench.Proofs.Script.LineReading

/-!
# What a rule makes of a line

`Rewrites k s s' found` says what the rule of the kind `k` makes of a text that begins at the start
of a line. Here is what it does with one line before such a text.

* A line of another kind is passed over: by an anchored rule because of what stands at its beginning
  (`Rewrites.pass_kind`), by the rule for default exports because nothing in it reads as one
  (`Rewrites.pass_quiet`).
* A line of its own kind is cut at its statement and nowhere else (`rewrites_removed`,
  `rewrites_bareImport`, `rewrites_declared`, `rewrites_exportDefault`).
-/

namespace Workbench.Script

open Pattern

variable {k : Kind} {a b s s' t w : List Char} {found : List (List Char)} {last : Option Char}

/-- The group that a rule of this kind is asked for. -/
def Kind.group : Kind → Nat
  | bareImport => 1
  | _ => 3

/-- From the start of a line on, the rule of a kind makes the text `s` the text `s'`, and its group
reads the texts `found`. -/
def Rewrites (k : Kind) (s s' : List Char) (found : List (List Char)) : Prop :=
  ∀ last, last = none ∨ last = some '\n' → ∃ ps, k.rule.pattern.Cuts last s ps ∧
    ps.flatMap (Piece.write k.rule.template.expand) = s' ∧
    (ps.filterMap Piece.hit?).filterMap (·.group? k.group) = found

theorem rewrites_nil : Rewrites k [] [] [] := fun last _ => ⟨[], .done last, rfl, rfl⟩

theorem IsLine.newline_not_mem (h : IsLine (a ++ b)) (hb : b ≠ []) : '\n' ∉ a := by
  obtain ⟨u, hu, hn⟩ := h
  rcases List.append_eq_append_iff.mp hu with ⟨c, rfl, -⟩ | ⟨c, rfl, hc⟩
  · exact fun ha => hn (List.mem_append_left c ha)
  · cases c with
    | nil => rwa [List.append_nil]
    | cons d c => exact absurd (List.append_eq_nil_iff.mp (List.cons.inj hc).2.symm).2 hb

theorem IsLine.getLast?_or (h : IsLine t) : t.getLast?.or last = some '\n' := by
  obtain ⟨u, rfl, -⟩ := h
  simp

theorem Rewrites.pass (ht : IsLine t) (h : Rewrites k s s' found)
    (hn : ∀ last, last = none ∨ last = some '\n' → ∀ a b, t = a ++ b → b ≠ [] →
      k.rule.pattern.readAt (a.getLast?.or last) (b ++ s) = none) :
    Rewrites k (t ++ s) (t ++ s') found := by
  intro last hl
  obtain ⟨ps, hc, rfl, rfl⟩ := h (some '\n') (Or.inr rfl)
  refine ⟨t.map .gap ++ ps, .gaps (hn last hl) ?_, ?_, ?_⟩
  · rwa [ht.getLast?_or]
  · rw [List.flatMap_append, flatMap_write_gaps]
  · rw [List.filterMap_append, filterMap_hit?_gaps, List.nil_append]

/-- A piece of a line is read behind places at which nothing is read, and nothing is read after it
up to the end of the line. -/
theorem Rewrites.cut {caps : List Capture} (ht : IsLine (a ++ (w ++ b))) (h : Rewrites k s s' found)
    (hw : ∀ last, last = none ∨ last = some '\n' →
      k.rule.pattern.Prefers (a.getLast?.or last) w (b ++ s) caps)
    (ha : ∀ last, last = none ∨ last = some '\n' → ∀ a' b', a = a' ++ b' → b' ≠ [] →
      k.rule.pattern.readAt (a'.getLast?.or last) (b' ++ (w ++ (b ++ s))) = none)
    (hb : ∀ last, last = none ∨ last = some '\n' → ∀ a' b', b = a' ++ b' → b' ≠ [] →
      k.rule.pattern.readAt (a'.getLast?.or ((a ++ w).getLast?.or last)) (b' ++ s) = none) :
    Rewrites k (a ++ (w ++ b) ++ s)
      (a ++ (k.rule.template.expand ⟨w, caps, b ++ s⟩ ++ (b ++ s')))
      ((Hit.group? ⟨w, caps, b ++ s⟩ k.group).toList ++ found) := by
  intro last hl
  obtain ⟨ps, hc, rfl, rfl⟩ := h (some '\n') (Or.inr rfl)
  refine ⟨a.map .gap ++ (.hit ⟨w, caps, b ++ s⟩ :: (b.map .gap ++ ps)), ?_, ?_, ?_⟩
  · have hl' : b.getLast?.or (w.getLast?.or (a.getLast?.or last)) = some '\n' := by
      rw [← getLast?_append_or, ← getLast?_append_or, ht.getLast?_or]
    rw [List.append_assoc, List.append_assoc]
    refine .gaps (ha last hl) (.hit (readAt_of_prefers (hw last hl)) (.gaps ?_ ?_))
    · rw [← getLast?_append_or]
      exact hb last hl
    · rwa [hl']
  · rw [List.flatMap_append, flatMap_write_gaps, List.flatMap_cons, List.flatMap_append,
      flatMap_write_gaps]
    rfl
  · have hh : Piece.hit? (.hit ⟨w, caps, b ++ s⟩) = some ⟨w, caps, b ++ s⟩ := rfl
    rw [List.filterMap_append, filterMap_hit?_gaps, List.nil_append, List.filterMap_cons_some hh,
      List.filterMap_append, filterMap_hit?_gaps, List.nil_append, List.filterMap_cons]
    cases Hit.group? ⟨w, caps, b ++ s⟩ k.group <;> rfl

/-! ## The anchored rules -/

/-- Within a line an anchored rule reads nothing. -/
theorem readAt_within (hk : k ≠ .defaultExport) (ht : IsLine (a ++ b)) (ha : a ≠ []) (hb : b ≠ []) :
    k.rule.pattern.readAt (a.getLast?.or last) (b ++ s) = none := by
  refine readAt_eq_none.mpr fun w rest _ hr => ?_
  obtain ⟨u, c, rfl⟩ := List.eq_nil_or_concat a |>.resolve_left ha
  have hn := ht.newline_not_mem hb
  obtain ⟨hl, -⟩ := kindAt?_of_reads hk hr
  rw [List.concat_eq_append] at hn hl
  rw [getLast?_append_or] at hl
  rcases hl with hl | hl
  · exact Option.some_ne_none c hl
  · obtain rfl : c = '\n' := Option.some.inj hl
    exact hn (List.mem_append_right u List.mem_cons_self)

/-- A line of another kind is passed over. -/
theorem Rewrites.pass_kind (hk : k ≠ .defaultExport) (ht : IsLine t) (h : Rewrites k s s' found)
    (hn : kindAt? (t ++ s) ≠ some k) : Rewrites k (t ++ s) (t ++ s') found := by
  refine h.pass ht fun last hl a b hab hb => ?_
  by_cases ha : a = []
  · subst ha
    obtain rfl : t = b := hab
    refine readAt_eq_none.mpr fun w rest hs hr => hn ?_
    rw [hs]
    exact (kindAt?_of_reads hk hr).2
  · exact readAt_within hk (hab ▸ ht) ha hb

/-- A line whose beginning is read is cut there and nowhere else. -/
theorem Rewrites.cut_kind {caps : List Capture} (hk : k ≠ .defaultExport) (ht : IsLine (w ++ b))
    (h : Rewrites k s s' found)
    (hw : ∀ {last}, last = none ∨ last = some '\n' → k.rule.pattern.Prefers last w (b ++ s) caps)
    (hne : w ≠ []) :
    Rewrites k (w ++ b ++ s) (k.rule.template.expand ⟨w, caps, b ++ s⟩ ++ (b ++ s'))
      ((Hit.group? ⟨w, caps, b ++ s⟩ k.group).toList ++ found) := by
  refine h.cut (a := []) ht (fun last hl => hw hl) ?_ ?_
  · intro last hl a' b' hab hb'
    exact absurd (List.append_eq_nil_iff.mp hab.symm).2 hb'
  · intro last hl a' b' hab hb'
    rw [← getLast?_append_or]
    refine readAt_within hk ?_ ?_ hb'
    · rw [List.nil_append, List.append_assoc, ← hab]
      exact ht
    · simp [hne]

/-- A line that is read to its end and for which nothing is written is cut out. -/
theorem Rewrites.cut_out {caps : List Capture} (hk : k ≠ .defaultExport)
    (htpl : k.rule.template = []) (ht : IsLine w) (h : Rewrites k s s' found)
    (hw : ∀ {last}, last = none ∨ last = some '\n' → k.rule.pattern.Prefers last w s caps) :
    Rewrites k (w ++ s) s' ((Hit.group? ⟨w, caps, s⟩ k.group).toList ++ found) := by
  have hne : w ≠ [] := by
    obtain ⟨u, rfl, -⟩ := ht
    simp
  rw [← List.append_nil w] at ht
  have hc := Rewrites.cut_kind hk ht h hw hne
  rw [htpl, List.append_nil] at hc
  exact hc

theorem Statement.rule_eq (x : Statement) :
    x.kind ≠ .defaultExport ∧ x.kind.rule.template = [] ∧ x.kind.group = 3 := by
  refine ⟨?_, ?_, ?_⟩
  · cases x <;> simp [Statement.kind]
  · cases x <;> rfl
  · cases x <;> rfl

theorem rewrites_removed (i : Indent) (x : Statement) (t : Tail) (h : Rewrites x.kind s s' found)
    (hf : x.kind = .listExport → NotFrom s) :
    Rewrites x.kind ((Line.removed i x t).source ++ s) s' found := by
  obtain ⟨hk, htpl, hg⟩ := x.rule_eq
  have hc := h.cut_out hk htpl (Line.isLine_source (.removed i x t))
    (fun hl => prefers_statement i t hl x hf)
  rw [group?_eq (by rw [hg]; decide)] at hc
  exact hc

theorem rewrites_bareImport (i : Indent) (b : Gap) (x : Specifier) (t : Tail)
    (h : Rewrites .bareImport s s' found) :
    Rewrites .bareImport ((Line.bareImport i b x t).source ++ s) s'
      ((Line.bareImport i b x t).found ++ found) := by
  have hs : (Line.bareImport i b x t).source =
      i.chars ++ (letters "import" ++ (b.chars ++ (x.chars ++ t.close)) ++ t.lineEnd) := by
    rw [Line.source]
    simp only [List.append_assoc]
  have hline := Line.isLine_source (.bareImport i b x t)
  rw [hs] at hline ⊢
  have hc := h.cut_out (by decide) rfl hline (fun hl => prefers_bareImport i b x t hl rfl)
  rw [group?_eq (by decide)] at hc
  simp only [List.map_cons, List.map_nil, entry, List.take_left] at hc
  exact hc

theorem Declaration.kind_ne (x : Declaration) : x.kind ≠ .defaultExport := by
  cases x <;> simp [Declaration.kind]

theorem expand_declaration (x : Declaration) {i name : List Char} {h : Hit}
    (hc : h.captures.map entry = [(3, name), (2, x.words), (1, i)]) :
    x.kind.rule.template.expand h = i ++ (x.words ++ (x.beforeNameImage ++ name)) := by
  have h₁ : h.groupText 1 = i := by rw [Hit.groupText, group?_eq (by decide), hc]; rfl
  have h₂ : h.groupText 2 = x.words := by rw [Hit.groupText, group?_eq (by decide), hc]; rfl
  have h₃ : h.groupText 3 = name := by rw [Hit.groupText, group?_eq (by decide), hc]; rfl
  cases x with
  | function async? head =>
    show h.groupText 1 ++ (h.groupText 2 ++ (h.groupText 3 ++ [])) = _
    rw [h₁, h₂, h₃, List.append_nil]
    rfl
  | classWord s =>
    show h.groupText 1 ++ (h.groupText 2 ++ (h.groupText 3 ++ [])) = _
    rw [h₁, h₂, h₃, List.append_nil]
    rfl
  | binding word s =>
    show h.groupText 1 ++ (h.groupText 2 ++ (" ".toList ++ (h.groupText 3 ++ []))) = _
    rw [h₁, h₂, h₃, List.append_nil]
    rfl

theorem rewrites_declared (i : Indent) (sep : Separator) (x : Declaration) (name : Identifier)
    (r : Rest) (h : Rewrites x.kind s s' found) :
    Rewrites x.kind ((Line.declared i sep x name r).source ++ s)
      ((Line.declared i sep x name r).image ++ s') (name.chars :: found) := by
  have hg : x.kind.group = 3 := by cases x <;> rfl
  have hs : (Line.declared i sep x name r).source =
      i.chars ++ (letters "export" ++ (sep.chars ++ (x.words ++ (x.beforeName ++ name.chars)))) ++
        (r.run.chars ++ ['\n']) := by
    rw [Line.source]
    simp only [List.append_assoc]
  have hstop : Stops isNamePart (r.run.chars ++ ['\n'] ++ s) := by
    rw [List.append_assoc]
    cases hr : r.run.chars with
    | nil => exact stops_cons.mpr (by decide)
    | cons c w => exact stops_cons.mpr (stops_cons.mp (hr ▸ r.stops))
  have hne : i.chars ++ (letters "export" ++ (sep.chars ++ (x.words ++ (x.beforeName ++
      name.chars)))) ≠ [] :=
    fun h => List.cons_ne_nil _ _ (List.append_eq_nil_iff.mp h).2
  obtain ⟨caps, hp, hcaps⟩ := prefers_declaration x i sep name hstop
  have hline := Line.isLine_source (.declared i sep x name r)
  rw [hs] at hline
  have hc := h.cut_kind x.kind_ne hline hp hne
  rw [expand_declaration x hcaps, hg, group?_eq (by decide), hcaps] at hc
  rw [hs, Line.image]
  simp only [List.append_assoc] at hc ⊢
  exact hc

/-! ## The rule for default exports -/

/-- No place of the text is read as `export default`, with a newline and the text `s` behind it: at
each `export` in it the word goes on before, or what follows is not the word `default`. -/
def Quiet (t s : List Char) : Prop :=
  ∀ a b, t = a ++ (letters "export" ++ b) →
    a.getLast?.any Text.isWord = true ∨ defaultFollows (b ++ '\n' :: s) = false

theorem defaultFollows_cons {c : Char} (h : Text.isBlank c = false) :
    defaultFollows (c :: t) = false := by
  have hc : (c :: t).head?.any Text.isBlank = false := h
  rw [defaultFollows, hc, Bool.false_and]

theorem defaultFollows_of_reads (h : (all [separator, text "default", separator]).Reads last w s) :
    defaultFollows (w ++ s) = true := by
  obtain ⟨_, _, rfl, hx, _, _, rfl, hw, hy⟩ := h
  obtain ⟨c, x, rfl, hc, hb⟩ := reads_some1.mp hx
  obtain rfl := (reads_word _).mp hw
  obtain ⟨d, y, rfl, hd, -⟩ := reads_some1.mp hy
  have hb : ∀ e ∈ c :: x, Text.isBlank e = true := List.forall_mem_cons.mpr ⟨hc, hb⟩
  have hs : Stops Text.isBlank (letters "default" ++ (d :: y ++ s)) := stops_cons.mpr (by decide)
  have hhead : Option.any Text.isBlank (c :: x ++ (letters "default" ++ (d :: y ++ s))).head? = true :=
    hc
  rw [List.append_assoc, List.append_assoc, defaultFollows, hhead, dropWhile_run hb hs,
    behind?_append]
  exact hd

theorem exists_of_append_newline (h : t ++ ['\n'] = a ++ b) (hb : b ≠ []) :
    ∃ c, b = c ++ ['\n'] ∧ t = a ++ c := by
  obtain ⟨c, d, rfl⟩ := List.eq_nil_or_concat b |>.resolve_left hb
  rw [List.concat_eq_append, ← List.append_assoc] at h
  obtain ⟨rfl, hd⟩ := List.append_inj' h rfl
  obtain rfl := (List.cons.inj hd).1
  exact ⟨c, List.concat_eq_append, rfl⟩

theorem readAt_quiet (ht : Quiet t s) (hab : t ++ ['\n'] = a ++ b) (hb : b ≠ []) :
    defaultExport.pattern.readAt (a.getLast?.or last) (b ++ s) = none := by
  refine readAt_eq_none.mpr fun w rest hs hr => ?_
  obtain ⟨_, _, rfl, ⟨rfl, he⟩, _, y, rfl, hw, hy⟩ := hr
  obtain rfl := (reads_word _).mp hw
  obtain ⟨b, rfl, rfl⟩ := exists_of_append_newline hab hb
  have hs' : letters "export" ++ (y ++ rest) = b ++ '\n' :: s := by
    simpa using hs.symm
  obtain ⟨b, rfl⟩ := prefix_of_prefix_newline (by decide) ⟨_, hs'⟩
  rw [List.append_assoc] at hs'
  have hcb : y ++ rest = b ++ '\n' :: s := List.append_cancel_left hs'
  rcases ht a b rfl with h | h
  · have hlast : Option.any Text.isWord (a.getLast?.or last) = true := by
      cases hl : a.getLast? with
      | none => simp [hl] at h
      | some d => simpa [hl] using h
    exact he hlast
  · rw [← hcb, defaultFollows_of_reads hy] at h
    exact Bool.false_ne_true h.symm

theorem Rewrites.pass_quiet (h : Rewrites .defaultExport s s' found) (hn : '\n' ∉ t)
    (ht : Quiet t s) : Rewrites .defaultExport (t ++ ['\n'] ++ s) (t ++ ['\n'] ++ s') found :=
  h.pass ⟨t, rfl, hn⟩ fun _ _ _ _ hab hb => readAt_quiet ht hab hb

theorem quiet_of_lacks (h : Lacks "export" t) : Quiet t s := by
  intro a b ht
  refine absurd ?_ h
  rw [ht]
  exact ⟨a, b, List.append_assoc _ _ _⟩

theorem letters_export : letters "export" = ['e', 'x', 'p', 'o', 'r', 't'] := String.toList_ofList

/-- A beginning without an `x` hides no `export`. -/
theorem Quiet.append (hx : 'x' ∉ w) (he : w.getLast? ≠ some 'e') (h : Quiet t s) :
    Quiet (w ++ t) s := by
  intro a b hs
  rcases List.append_eq_append_iff.mp hs with ⟨c, rfl, hc⟩ | ⟨c, rfl, hc⟩
  · refine (h c b hc).imp_left fun h => ?_
    rw [List.getLast?_append]
    cases hl : c.getLast? with
    | none => simp [hl] at h
    | some d => simpa [hl] using h
  · rw [letters_export] at hc
    rcases c with _ | ⟨d, _ | ⟨d', c⟩⟩
    · refine (h [] b ?_).imp_left fun h => absurd h (by simp)
      rw [letters_export]
      exact hc.symm
    · obtain ⟨rfl, -⟩ := List.cons.inj hc
      exact absurd (by simp) he
    · obtain ⟨-, hc⟩ := List.cons.inj hc
      obtain ⟨rfl, -⟩ := List.cons.inj hc
      exact absurd (by simp) hx

theorem endsInExport_of_eq {x : Identifier} (h : x.chars = a ++ letters "export")
    (ha : a.getLast?.any Text.isWord = false) : x.endsInExport = true := by
  rw [Identifier.endsInExport, h, List.reverse_append, behind?_append]
  simpa using ha

theorem quiet_declared (name : Identifier) (r : Rest)
    (h : (name.endsInExport && defaultFollows (r.run.chars ++ '\n' :: s)) = false) :
    Quiet (name.chars ++ r.run.chars) s := by
  -- An `export` at the end of the name is the only one that a blank can follow.
  have hend {a : List Char} (ha : name.chars = a ++ letters "export") : a.getLast?.any Text.isWord = true ∨
      defaultFollows (r.run.chars ++ '\n' :: s) = false := by
    by_cases hw : a.getLast?.any Text.isWord = true
    · exact .inl hw
    · rw [endsInExport_of_eq ha (Bool.not_eq_true _ ▸ hw), Bool.true_and] at h
      exact .inr h
  intro a b hs
  rcases List.append_eq_append_iff.mp hs with ⟨c, rfl, hc⟩ | ⟨c, hn, hc⟩
  · refine absurd ?_ r.lacks
    rw [hc]
    exact ⟨c, b, List.append_assoc _ _ _⟩
  · rcases List.append_eq_append_iff.mp hc with ⟨d, rfl, rfl⟩ | ⟨d, he, hr⟩
    · cases d with
      | nil => exact hend (by rw [hn, List.append_nil])
      | cons x d =>
        have hx : isNamePart x = true := name.isNamePart x (by rw [hn]; simp)
        refine .inr (defaultFollows_cons ?_)
        rw [← Bool.not_eq_true]
        intro hb
        exact Bool.false_ne_true ((isNamePart_of_isBlank hb).symm.trans hx)
    · cases d with
      | nil =>
        rw [List.nil_append] at hr
        exact hr ▸ hend (by rw [hn, he, List.append_nil])
      | cons x d =>
        have hx : ∀ x ∈ letters "export", isNamePart x = true :=
          List.all_eq_true.mp (by decide)
        have hstop : isNamePart x = false := r.stops x (by rw [hr]; rfl)
        exact absurd (hx x (by rw [he]; simp)) (by simp [hstop])

theorem getLast?_append_ne {c : Char} (hs : s ≠ []) (hc : c ∉ s) : (w ++ s).getLast? ≠ some c := by
  intro h
  rw [List.getLast?_append_of_ne_nil w hs] at h
  exact hc (List.mem_of_getLast? h)

/-- A declaration has something other than a letter before the name, and no `x` at all. -/
theorem Declaration.words_append_eq (x : Declaration) :
    ∃ u v, x.words ++ x.beforeNameImage = u ++ v ∧ 'x' ∉ u ++ v ∧ v ≠ [] ∧ 'e' ∉ v := by
  have hhead (h : FunctionHead) : 'x' ∉ h.chars ∧ h.chars ≠ [] ∧ 'e' ∉ h.chars := by
    refine ⟨h.not_mem (by decide) (by decide), ?_, h.not_mem (by decide) (by decide)⟩
    cases h <;> simp [FunctionHead.chars, Separator.chars]
  have hx (s : Separator) : 'x' ∉ s.chars := s.not_mem (by decide)
  have hf : 'x' ∉ letters "function" := by decide
  rcases x with ⟨_ | s, head⟩ | s | ⟨word, s⟩
  · exact ⟨letters "function", head.chars, List.append_nil _,
      List.not_mem_append hf (hhead head).1, (hhead head).2⟩
  · refine ⟨letters "async" ++ (s.chars ++ letters "function"), head.chars, ?_,
      List.not_mem_append (List.not_mem_append (by decide) (List.not_mem_append (hx s) hf))
        (hhead head).1, (hhead head).2⟩
    show letters "async" ++ (s.chars ++ (letters "function" ++ head.chars)) ++ [] = _
    simp only [List.append_assoc, List.append_nil]
  · exact ⟨letters "class", s.chars, List.append_nil _,
      List.not_mem_append (by decide) (hx s), List.cons_ne_nil _ _, s.not_mem (by decide)⟩
  · refine ⟨word.chars, [' '], rfl, List.not_mem_append ?_ (by decide), by decide, by decide⟩
    cases word <;> decide

/-- The words of a declaration hide no `export`. -/
theorem Declaration.quiet_append (x : Declaration) (i : Indent) (h : Quiet t s) :
    Quiet (i.chars ++ (x.words ++ (x.beforeNameImage ++ t))) s := by
  obtain ⟨u, v, huv, hx, hv, he⟩ := x.words_append_eq
  have hi : 'x' ∉ i.chars := i.not_mem (by decide)
  rw [← List.append_assoc x.words, huv, ← List.append_assoc i.chars]
  refine h.append (List.not_mem_append hi hx) ?_
  rw [← List.append_assoc]
  exact getLast?_append_ne hv he

theorem rewrites_exportDefault (i : Indent) (s₁ s₂ : Separator) (x : Expression)
    (h : Rewrites .defaultExport s s' found) :
    Rewrites .defaultExport ((Line.exportDefault i s₁ s₂ x).source ++ s)
      ((Line.exportDefault i s₁ s₂ x).image ++ s') found := by
  have hs : (Line.exportDefault i s₁ s₂ x).source =
      i.chars ++ (letters "export" ++ (s₁.chars ++ (letters "default" ++ s₂.chars)) ++
        (x.chars ++ ['\n'])) := by
    rw [Line.source]
    simp only [List.append_assoc]
  have hline := Line.isLine_source (.exportDefault i s₁ s₂ x)
  have hw : ∀ last, last = none ∨ last = some '\n' →
      defaultExport.pattern.Prefers (i.chars.getLast?.or last)
        (letters "export" ++ (s₁.chars ++ (letters "default" ++ s₂.chars)))
        (x.chars ++ ['\n'] ++ s) [] := by
    intro last hl
    refine prefers_defaultExport s₁ s₂ ?_ x.stops_isBlank.assoc
    cases hi : i.chars.getLast? with
    | none => rcases hl with rfl | rfl <;> decide
    | some c =>
      have hc := Text.isBlank_of_isIndent (i.all_ok c (List.mem_of_getLast? hi))
      exact Text.isWord_eq_false_of_isBlank hc
  rw [hs] at hline ⊢
  have hc := h.cut hline hw ?_ ?_
  · show Rewrites .defaultExport _ (i.chars ++ (x.chars ++ ['\n']) ++ s') found
    rw [List.append_assoc i.chars (x.chars ++ ['\n']) s']
    exact hc
  · intro last _ a b hab hb
    obtain ⟨c, b, rfl⟩ := List.exists_cons_of_ne_nil hb
    refine readAt_eq_none.mpr fun w rest hs hr => ?_
    obtain ⟨_, _, rfl, ⟨rfl, -⟩, _, _, rfl, hw, -⟩ := hr
    obtain rfl := (reads_word _).mp hw
    have hc : c ∈ i.chars := by rw [hab]; simp
    have he : c = 'e' := (List.cons.inj hs).1
    exact absurd (he ▸ i.all_ok c hc) (by decide)
  · intro last _ a b hab hb
    exact readAt_quiet (quiet_of_lacks x.lacks) hab hb

end Workbench.Script
