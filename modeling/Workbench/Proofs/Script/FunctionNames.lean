import Workbench.Proofs.Script.LineReading
import Workbench.Proofs.Script.Names

/-!
# Functions declared at the start of a line

`functionNames s` lists the functions that a text declares at the start of a line. It looks for a
declaration at each such place, by what stands there and with no pattern: blanks, maybe `async`, the
word `function`, maybe a star, a name and an opening parenthesis. The parts of a declaration may
stand on several lines, so the next one is looked for behind the parenthesis.

* `declaredAt?_eq_some_iff`: a declaration is found exactly where one stands.
* `collect_declaredFunction`: the rule that finds such names finds these.
-/

namespace Workbench.Script

open Pattern

variable {last : Option Char} {n s t w rest : List Char}

/-! ## The names -/

/-- The text behind a word `async` and the blanks after it, of which there is one at least. -/
def afterAsync (s : List Char) : List Char :=
  match behind? (letters "async") s with
  | some t => if t.head?.any Text.isBlank then t.dropWhile Text.isBlank else s
  | none => s

/-- The text behind a star and the blanks after it. -/
def afterStar : List Char → List Char
  | '*' :: s => s.dropWhile Text.isBlank
  | s => s

/-- The text behind a word `function` that ends there, and behind the blanks and the star after it. -/
def afterFunction? (s : List Char) : Option (List Char) :=
  match behind? (letters "function") s with
  | some t => if t.head?.any Text.isWord then none else some (afterStar (t.dropWhile Text.isBlank))
  | none => none

/-- The name with which the text begins, and the text behind the parenthesis after it. -/
def calledAt? (s : List Char) : Option (List Char × List Char) :=
  match (s.dropWhile isNamePart).dropWhile Text.isBlank with
  | '(' :: rest =>
    if s.head?.any isNameStart then some (s.takeWhile isNamePart, rest) else none
  | _ => none

/-- The name of the function whose declaration stands at the beginning of the text, and the text
behind the parenthesis that opens its parameters. -/
def declaredAt? (s : List Char) : Option (List Char × List Char) :=
  (afterFunction? (afterAsync (s.dropWhile Text.isIndent))).bind calledAt?

/-- The names of the functions that are declared at the start of a line in a text, which follows the
character `last`. The first `skip` characters belong to a declaration that was found. -/
def functionNamesFrom : Nat → Option Char → List Char → List (List Char)
  | _, _, [] => []
  | skip + 1, _, c :: s => functionNamesFrom skip (some c) s
  | 0, last, c :: s =>
    match if last.all (· == '\n') then declaredAt? (c :: s) else none with
    | some (name, rest) => name :: functionNamesFrom (s.length - rest.length) (some c) s
    | none => functionNamesFrom 0 (some c) s

/-- The names of the functions that are declared at the start of a line. -/
def functionNames (s : List Char) : List (List Char) := functionNamesFrom 0 none s

/-! ## Declarations -/

/-- The word `async` with the blanks behind it. -/
structure Async where
  first : Char
  first_ok : Text.isBlank first = true
  more : Blanks

def Async.blanks (x : Async) : List Char := x.first :: x.more.chars

def asyncChars : Option Async → List Char
  | none => []
  | some a => letters "async" ++ a.blanks

/-- A function's declaration up to the parenthesis that opens its parameters. -/
structure FunctionOpening where
  indent : Indent
  async? : Option Async
  gap : Blanks
  star? : Option Blanks
  name : Identifier
  behind : Blanks
  word_ends : Stops Text.isWord (gap.chars ++ (starChars star? ++ name.chars))

def FunctionOpening.chars (x : FunctionOpening) : List Char :=
  x.indent.chars ++ (asyncChars x.async? ++ (letters "function" ++ (x.gap.chars ++
    (starChars x.star? ++ (x.name.chars ++ (x.behind.chars ++ ['(']))))))

variable {async? : Option Async} {star? : Option Blanks} {name : Identifier}

theorem Async.isBlank (x : Async) : ∀ c ∈ x.blanks, Text.isBlank c = true :=
  List.forall_mem_cons.mpr ⟨x.first_ok, x.more.all_ok⟩

theorem stops_function : Stops Text.isBlank (letters "function" ++ s) := stops_cons.mpr (by decide)

theorem stops_asyncChars : Stops Text.isIndent (asyncChars async? ++ (letters "function" ++ s)) := by
  cases async? with
  | none => exact stops_cons.mpr (by decide)
  | some a => exact stops_cons.mpr (by decide)

theorem FunctionOpening.stops_isWord (x : FunctionOpening) :
    Stops Text.isWord (x.gap.chars ++ (starChars x.star? ++ (x.name.chars ++ s))) := by
  have h := (stops_append_iff (s := s) (by simp [Identifier.chars])).mpr x.word_ends
  rwa [List.append_assoc, List.append_assoc] at h

theorem stops_isNamePart (blanks : Blanks) : Stops isNamePart (blanks.chars ++ '(' :: rest) :=
  .append (fun c hc => isNamePart_of_isBlank (blanks.all_ok c hc)) (stops_cons.mpr (by decide))

/-! ## A declaration is found where it stands -/

theorem behind?_cons_eq_none {c d : Char} (h : c ≠ d) : behind? (c :: w) (d :: s) = none := by
  rw [behind?, if_neg]
  exact fun hp => not_prefix_cons h (List.isPrefixOf_iff_prefix.mp hp)

theorem afterAsync_append :
    afterAsync (asyncChars async? ++ (letters "function" ++ t)) = letters "function" ++ t := by
  cases async? with
  | none =>
    have hn : behind? (letters "async") (letters "function" ++ t) = none :=
      behind?_cons_eq_none (by decide)
    simp only [asyncChars, afterAsync, List.nil_append, hn]
  | some a =>
    have hb : Option.any Text.isBlank (a.blanks ++ (letters "function" ++ t)).head? = true :=
      a.first_ok
    simp only [asyncChars, afterAsync, List.append_assoc, behind?_append, hb, if_true]
    exact dropWhile_run a.isBlank stops_function

theorem afterStar_append : afterStar (starChars star? ++ (name.chars ++ t)) = name.chars ++ t := by
  cases star? with
  | none =>
    have hs : name.first ≠ '*' := fun h => absurd (h ▸ name.first_ok) (by decide)
    rw [starChars, List.nil_append, Identifier.chars, List.cons_append, afterStar]
    exact fun s h => hs (List.cons.inj h).1
  | some b => exact dropWhile_run b.all_ok name.stops_isBlank

theorem afterFunction?_append (gap : Blanks)
    (h : Stops Text.isWord (gap.chars ++ (starChars star? ++ (name.chars ++ t)))) :
    afterFunction? (letters "function" ++ (gap.chars ++ (starChars star? ++ (name.chars ++ t)))) =
      some (name.chars ++ t) := by
  have hword := stops_iff_any_head?.mp h
  have hgap : (gap.chars ++ (starChars star? ++ (name.chars ++ t))).dropWhile Text.isBlank =
      starChars star? ++ (name.chars ++ t) := dropWhile_run gap.all_ok stops_starChars
  simp only [afterFunction?, behind?_append, hword, hgap, afterStar_append]
  rfl

theorem calledAt?_append (blanks : Blanks) :
    calledAt? (name.chars ++ (blanks.chars ++ '(' :: rest)) = some (name.chars, rest) := by
  have hparen : Stops Text.isBlank ('(' :: rest) := stops_cons.mpr (by decide)
  have hpart : Stops isNamePart (blanks.chars ++ '(' :: rest) := stops_isNamePart blanks
  have hstart : Option.any isNameStart (name.chars ++ (blanks.chars ++ '(' :: rest)).head? = true :=
    name.first_ok
  simp only [calledAt?, dropWhile_run name.isNamePart hpart, dropWhile_run blanks.all_ok hparen,
    takeWhile_run name.isNamePart hpart, hstart, if_true]

theorem declaredAt?_chars (x : FunctionOpening) :
    declaredAt? (x.chars ++ rest) = some (x.name.chars, rest) := by
  have hs : x.chars ++ rest = x.indent.chars ++ (asyncChars x.async? ++ (letters "function" ++
      (x.gap.chars ++ (starChars x.star? ++ (x.name.chars ++ (x.behind.chars ++ '(' :: rest)))))) := by
    simp [FunctionOpening.chars]
  rw [hs, declaredAt?, dropWhile_run x.indent.all_ok stops_asyncChars, afterAsync_append,
    afterFunction?_append x.gap x.stops_isWord]
  exact calledAt?_append x.behind

/-! ## Where one is found, a declaration stands -/

/-- The characters of the class at the beginning of a text. -/
def Run.ofTakeWhile (ok : Char → Bool) (s : List Char) : Run ok :=
  ⟨s.takeWhile ok, List.all_eq_true.mp List.all_takeWhile⟩

theorem Run.ofTakeWhile_append (ok : Char → Bool) (s : List Char) :
    s = (Run.ofTakeWhile ok s).chars ++ s.dropWhile ok :=
  List.takeWhile_append_dropWhile.symm

theorem exists_async (s : List Char) : ∃ async?, s = asyncChars async? ++ afterAsync s := by
  rw [afterAsync]
  split
  · rename_i t h
    split
    · rename_i hb
      obtain rfl := behind?_eq_some_iff.mp h
      cases t with
      | nil => exact absurd hb Bool.false_ne_true
      | cons c t =>
        have hc : Text.isBlank c = true := hb
        refine ⟨some ⟨c, hc, .ofTakeWhile _ t⟩, ?_⟩
        rw [List.dropWhile_cons_of_pos hc, asyncChars, Async.blanks, List.append_assoc,
          List.cons_append, ← Run.ofTakeWhile_append]
    · exact ⟨none, rfl⟩
  · exact ⟨none, rfl⟩

theorem exists_star (s : List Char) : ∃ star?, s = starChars star? ++ afterStar s := by
  rw [afterStar.eq_def]
  split
  · rename_i s
    refine ⟨some (.ofTakeWhile _ s), ?_⟩
    rw [starChars, List.cons_append, ← Run.ofTakeWhile_append]
  · exact ⟨none, rfl⟩

theorem exists_of_afterFunction? (h : afterFunction? s = some t) : ∃ (gap : Blanks) (star? : _),
    s = letters "function" ++ (gap.chars ++ (starChars star? ++ t)) ∧
      Stops Text.isWord (gap.chars ++ (starChars star? ++ t)) := by
  rw [afterFunction?] at h
  split at h
  · rename_i u hf
    split at h
    · exact absurd h.symm (Option.some_ne_none t)
    · rename_i hword
      obtain rfl := Option.some.inj h
      obtain ⟨star?, hstar⟩ := exists_star (u.dropWhile Text.isBlank)
      have hu : u = (Run.ofTakeWhile Text.isBlank u).chars ++ (starChars star? ++
          afterStar (u.dropWhile Text.isBlank)) := by
        rw [← hstar]
        exact Run.ofTakeWhile_append _ u
      refine ⟨.ofTakeWhile _ u, star?, ?_, ?_⟩
      · rw [behind?_eq_some_iff.mp hf, ← hu]
      · rw [← hu]
        exact stops_iff_any_head?.mpr (by simpa using hword)
  · exact absurd h.symm (Option.some_ne_none t)

theorem exists_of_calledAt? (h : calledAt? s = some (n, rest)) :
    ∃ (name : Identifier) (blanks : Blanks),
      s = name.chars ++ (blanks.chars ++ '(' :: rest) ∧ n = name.chars := by
  rw [calledAt?] at h
  split at h
  · rename_i rest' hparen
    split at h
    · rename_i hstart
      obtain ⟨rfl, rfl⟩ := Prod.mk.inj (Option.some.inj h)
      cases s with
      | nil => exact absurd hstart Bool.false_ne_true
      | cons c s =>
        have hc : isNamePart c = true := isNamePart_of_isNameStart hstart
        rw [List.dropWhile_cons_of_pos hc] at hparen
        refine ⟨⟨c, hstart, .ofTakeWhile _ s⟩, .ofTakeWhile _ (s.dropWhile isNamePart), ?_, ?_⟩
        · rw [← hparen, ← Run.ofTakeWhile_append, Identifier.chars, List.cons_append,
            ← Run.ofTakeWhile_append]
        · rw [List.takeWhile_cons_of_pos hc]
          rfl
    · exact absurd h.symm (Option.some_ne_none _)
  · exact absurd h.symm (Option.some_ne_none _)

/-- A declaration is found exactly where one stands. -/
theorem declaredAt?_eq_some_iff :
    declaredAt? s = some (n, rest) ↔ ∃ x : FunctionOpening, s = x.chars ++ rest ∧ n = x.name.chars := by
  constructor
  · intro h
    obtain ⟨t, ht, hn⟩ := Option.bind_eq_some_iff.mp h
    obtain ⟨async?, ha⟩ := exists_async (s.dropWhile Text.isIndent)
    obtain ⟨gap, star?, hf, hword⟩ := exists_of_afterFunction? ht
    obtain ⟨name, blanks, rfl, rfl⟩ := exists_of_calledAt? hn
    rw [← List.append_assoc, ← List.append_assoc, stops_append_iff (by simp [Identifier.chars]),
      List.append_assoc] at hword
    refine ⟨⟨.ofTakeWhile _ s, async?, gap, star?, name, blanks, hword⟩, ?_, rfl⟩
    have hs := Run.ofTakeWhile_append Text.isIndent s
    rw [ha, hf] at hs
    exact hs.trans (by simp [FunctionOpening.chars])
  · rintro ⟨x, rfl, rfl⟩
    exact declaredAt?_chars x

/-! ## The rule -/

theorem exists_opening_of_reads (h : declaredFunction.pattern.Reads last w rest) :
    (last = none ∨ last = some '\n') ∧ ∃ x : FunctionOpening, w = x.chars := by
  obtain ⟨_, _, rfl, ⟨rfl, hl⟩, i, _, rfl, hi, a, _, rfl, ha, _, _, rfl, hf, _, _, rfl,
    ⟨rfl, hedge⟩, g, _, rfl, hg, m, _, rfl, hm, g', _, rfl, hg', _, _, rfl, hn, b, _, rfl, hb, _, hp,
    rfl⟩ := h
  obtain rfl := (reads_word _).mp hf
  obtain ⟨name, rfl⟩ := exists_identifier_of_reads hn
  obtain rfl := eq_of_beq hp
  obtain ⟨async?, rfl⟩ : ∃ async?, a = asyncChars async? := by
    rcases ha with ⟨_, _, rfl, ha, hs⟩ | rfl
    · obtain rfl := (reads_word _).mp ha
      obtain ⟨c, v, rfl, hc, hv⟩ := reads_some1.mp hs
      exact ⟨some ⟨c, hc, v, hv⟩, rfl⟩
    · exact ⟨none, rfl⟩
  obtain ⟨blanks, star?, hstar⟩ : ∃ (blanks : Blanks) (star? : Option Blanks),
      ∀ z, g ++ (m ++ (g' ++ z)) = blanks.chars ++ (starChars star? ++ z) := by
    rcases hm with ⟨c, hc, rfl⟩ | rfl
    · obtain rfl := eq_of_beq hc
      exact ⟨⟨g, hg⟩, some ⟨g', hg'⟩, fun z => rfl⟩
    · refine ⟨⟨g ++ g', fun c hc => ?_⟩, none, fun z => (List.append_assoc g g' z).symm⟩
      exact (List.mem_append.mp hc).elim (hg c) (hg' c)
  have hword : Stops Text.isWord (blanks.chars ++ (starChars star? ++ name.chars)) := by
    have hword : Option.any Text.isWord ([] ++ (g ++ (m ++ (g' ++ (name.chars ++ (b ++ ['(']))))) ++
        rest).head? = false := by
      rw [← Bool.not_eq_true]
      exact fun h => hedge h.symm
    rw [List.nil_append, hstar, ← List.append_assoc, ← List.append_assoc, List.append_assoc] at hword
    rw [← List.append_assoc]
    exact (stops_append_iff (by simp [Identifier.chars])).mp (stops_iff_any_head?.mpr hword)
  refine ⟨hl, ⟨⟨i, hi⟩, async?, blanks, star?, name, ⟨b, hb⟩, hword⟩, ?_⟩
  rw [FunctionOpening.chars, ← hstar]
  rfl

theorem prefers_async : (optional (all [text "async", separator])).Prefers last (asyncChars async?)
    (letters "function" ++ s ++ rest) [] := by
  cases async? with
  | none => exact prefers_skip (not_reads_seq_word (by decide))
  | some a =>
    exact .left (.andThen (.text "async") (.some1 a.first_ok a.more.all_ok stops_function.assoc))

theorem prefers_called (blanks : Blanks) :
    (all [group 1 identifier, gap, this '(']).Prefers last (name.chars ++ (blanks.chars ++ ['(']))
      rest [⟨1, name.chars ++ (blanks.chars ++ ['('] ++ rest), name.chars.length⟩] := by
  have hparen : Stops Text.isBlank (['('] ++ rest) := stops_cons.mpr (by decide)
  exact ((prefers_identifier name (stops_isNamePart blanks).assoc).group 1).seq
    (.andThen (.many blanks.all_ok hparen) (.char rfl))

/-- The rule reads a declaration up to its parenthesis; group 1 is the name. -/
theorem prefers_opening (x : FunctionOpening) (rest : List Char) (hl : last = none ∨ last = some '\n') :
    ∃ caps, declaredFunction.pattern.Prefers last x.chars rest caps ∧
      caps.map entry = [(1, x.name.chars)] := by
  have hc : x.chars = x.indent.chars ++ (asyncChars x.async? ++ (letters "function" ++
      (x.gap.chars ++ starChars x.star? ++ (x.name.chars ++ (x.behind.chars ++ ['(']))))) := by
    rw [FunctionOpening.chars, List.append_assoc x.gap.chars]
  have hbefore {last : Option Char} (hlast : last.any Text.isWord = true) :
      (all [wordEdge, gap, optional (this '*'), gap]).Prefers last (x.gap.chars ++ starChars x.star?)
        (x.name.chars ++ (x.behind.chars ++ ['(']) ++ rest) [] := by
    rw [List.append_assoc x.name.chars]
    exact prefers_beforeName x.gap x.star? x.name hlast x.stops_isWord
  have hindent {s : List Char} :
      Stops Text.isIndent (asyncChars x.async? ++ (letters "function" ++ s) ++ rest) := by
    rw [List.append_assoc, List.append_assoc]
    exact stops_asyncChars
  rw [hc]
  refine ⟨_, .andThen (u := []) (.lineStart hl) <| .andThen (.many x.indent.all_ok hindent) <|
    .andThen prefers_async <| .andThen (.text "function") <|
    .all_append [wordEdge, gap, optional (this '*'), gap] [group 1 identifier, gap, this '(']
      (List.cons_ne_nil _ _) (hbefore rfl) (prefers_called x.behind), ?_⟩
  simp [entry]

/-! ## All declarations of a text -/

theorem functionNamesFrom_length (w : List Char) : ∀ {last},
    functionNamesFrom w.length last (w ++ rest) = functionNamesFrom 0 (w.getLast?.or last) rest := by
  induction w with
  | nil => intro last; rfl
  | cons c w ih =>
    intro last
    rw [List.cons_append, List.length_cons, functionNamesFrom, ih, getLast?_cons_or]

theorem all_newline_iff :
    last.all (· == '\n') = true ↔ last = none ∨ last = some '\n' := by
  cases last <;> simp

theorem functionNamesFrom_opening (x : FunctionOpening) (hl : last = none ∨ last = some '\n') :
    functionNamesFrom 0 last (x.chars ++ rest) =
      x.name.chars :: functionNamesFrom 0 (x.chars.getLast?.or last) rest := by
  have hd : declaredAt? (x.chars ++ rest) = some (x.name.chars, rest) := declaredAt?_chars x
  have hne : x.chars ≠ [] := by simp [FunctionOpening.chars]
  obtain ⟨c, w, hc⟩ := List.exists_cons_of_ne_nil hne
  have hlen : (w ++ rest).length - rest.length = w.length := by simp
  rw [hc, List.cons_append] at hd
  rw [hc, List.cons_append, functionNamesFrom, if_pos (all_newline_iff.mpr hl), hd]
  simp only [hlen]
  rw [functionNamesFrom_length, getLast?_cons_or]

/-- Where the rule reads nothing there is no declaration. -/
theorem declaredAt?_eq_none (hl : last = none ∨ last = some '\n')
    (h : declaredFunction.pattern.readAt last s = none) : declaredAt? s = none := by
  cases hd : declaredAt? s with
  | none => rfl
  | some found =>
    obtain ⟨x, rfl, -⟩ := declaredAt?_eq_some_iff.mp hd
    obtain ⟨caps, hp, -⟩ := prefers_opening x found.2 hl
    exact absurd ((readAt_of_prefers hp).symm.trans h) (Option.some_ne_none _)

theorem functionNamesFrom_of_cuts {ps : List Piece} (h : declaredFunction.pattern.Cuts last s ps) :
    (ps.filterMap Piece.hit?).filterMap (·.group? 1) = functionNamesFrom 0 last s := by
  induction h with
  | done last => rfl
  | @gap last c rest ps hr _ ih =>
    have hn : (if last.all (· == '\n') then declaredAt? (c :: rest) else none) = none := by
      split
      · rename_i hl
        exact declaredAt?_eq_none (all_newline_iff.mp hl) hr
      · rfl
    rw [functionNamesFrom, hn]
    exact ih
  | @hit last s h ps hr _ ih =>
    obtain ⟨hs, hread⟩ := reads_of_readAt hr
    obtain ⟨hl, x, hx⟩ := exists_opening_of_reads hread
    obtain ⟨caps, hp, hcaps⟩ := prefers_opening x h.after hl
    rw [hx] at hs ih
    rw [hs, readAt_of_prefers hp] at hr
    have hg : h.group? 1 = some x.name.chars := by
      rw [← Option.some.inj hr, group?_eq Nat.one_ne_zero, hcaps]
      rfl
    rw [hs, functionNamesFrom_opening x hl, ← ih]
    exact List.filterMap_cons_some hg

/-- The names that the rule for declared functions finds are those of the functions declared at the
start of a line. -/
theorem collect_declaredFunction (s : List Char) :
    declaredFunction.collect 1 (String.ofList s) = (functionNames s).map String.ofList := by
  have h := functionNamesFrom_of_cuts (cuts_cut (p := declaredFunction.pattern) (by decide) s)
  rw [functionNames, ← h, List.map_filterMap, Rule.collect, collect, hits, String.toList_ofList]

example : functionNames "function a(b)\n  async function *\nc (d)\ne(function f())\n".toList =
    ["a".toList, "c".toList] := by decide +kernel

end Workbench.Script
