import Workbench.Text.Basic
import Workbench.Text.Word

/-!
# Patterns

A pattern describes pieces of text as a regular expression does, with captures, anchors and word
edges. Repetition is always of a single character class, so a repetition ends where the text does
and matching needs no bound of its own.

* `Pattern.ends p c` lists every place where a reading of `p` from `c` may stop, the preferred
  reading first: the earlier alternative before the later one, the longer greedy repetition before
  the shorter one, and the other way round for a reluctant one.
* `Pattern.run p c k` finds the first of them from which the rest `k` succeeds, and tries no more
  readings than it needs. `run_eq_findSome?` says that the two agree.
* `Pattern.Reads p last w rest` says which texts a pattern can read, without the preferences.
  `reads_of_mem_ends`: a reading stops behind such a text.
-/

namespace Workbench

/-- A regular expression over characters. -/
inductive Pattern where
  /-- Reads nothing. -/
  | empty
  /-- Reads one character of a class. -/
  | char (ok : Char → Bool)
  /-- Reads characters of a class, preferably as many as there are. -/
  | many (ok : Char → Bool)
  /-- Reads characters of a class, preferably as few as will do. -/
  | few (ok : Char → Bool)
  /-- Reads the one and then the other. -/
  | seq (first second : Pattern)
  /-- Reads the one, or failing that the other. -/
  | either (first second : Pattern)
  /-- Reads `body` and remembers what it read under a number. -/
  | group (number : Nat) (body : Pattern)
  /-- Holds at the start of the text and after a newline. -/
  | lineStart
  /-- Holds at the very end of the text. -/
  | textEnd
  /-- Holds between a word character and one that is none, or the end of the text. -/
  | wordEdge

namespace Pattern

/-- What a group read: the text from its start on, and how many characters of it. -/
structure Capture where
  number : Nat
  start : List Char
  length : Nat
  deriving DecidableEq

/-- A place in the text during a reading: how many characters the reading took so far, the character
before the place, the text after it, and the groups closed so far, the latest first. -/
structure Cursor where
  taken : Nat
  last : Option Char
  rest : List Char
  captures : List Capture

/-- The place after `c` is read, with `rest` to follow. -/
def Cursor.after (cur : Cursor) (c : Char) (rest : List Char) : Cursor :=
  ⟨cur.taken + 1, some c, rest, cur.captures⟩

/-- The place with one more group closed, which was opened at `opened`. -/
def Cursor.close (cur opened : Cursor) (number : Nat) : Cursor :=
  { cur with captures := ⟨number, opened.rest, cur.taken - opened.taken⟩ :: cur.captures }

/-- The character before the place is a newline or there is none. -/
def Cursor.atLineStart (cur : Cursor) : Bool :=
  match cur.last with
  | none => true
  | some c => c == '\n'

/-- Exactly one side of the place is a word character. -/
def Cursor.atWordEdge (cur : Cursor) : Bool :=
  (cur.last.any Text.isWord) != (cur.rest.head?.any Text.isWord)

/-- The places reached by reading none, one, two, … characters of the class, the nearest first. -/
def reads (ok : Char → Bool) : Nat → Option Char → List Char → List Capture → List Cursor
  | taken, last, [], caps => [⟨taken, last, [], caps⟩]
  | taken, last, c :: rest, caps =>
    ⟨taken, last, c :: rest, caps⟩ ::
      if ok c then reads ok (taken + 1) (some c) rest caps else []

/-- Every place where a reading may stop, the preferred one first. -/
def ends : Pattern → Cursor → List Cursor
  | empty, cur => [cur]
  | char ok, cur =>
    match cur.rest with
    | [] => []
    | c :: rest => if ok c then [cur.after c rest] else []
  | many ok, cur => (reads ok cur.taken cur.last cur.rest cur.captures).reverse
  | few ok, cur => reads ok cur.taken cur.last cur.rest cur.captures
  | seq p q, cur => (ends p cur).flatMap (ends q)
  | either p q, cur => ends p cur ++ ends q cur
  | group n p, cur => (ends p cur).map (·.close cur n)
  | lineStart, cur => if cur.atLineStart then [cur] else []
  | textEnd, cur => if cur.rest.isEmpty then [cur] else []
  | wordEdge, cur => if cur.atWordEdge then [cur] else []

/-- Reads as many characters of the class as possible and then fewer, until `k` succeeds. -/
def runMany (ok : Char → Bool) (k : Cursor → Option Cursor) :
    Nat → Option Char → List Char → List Capture → Option Cursor
  | taken, last, [], caps => k ⟨taken, last, [], caps⟩
  | taken, last, c :: rest, caps =>
    if ok c then
      match runMany ok k (taken + 1) (some c) rest caps with
      | some e => some e
      | none => k ⟨taken, last, c :: rest, caps⟩
    else k ⟨taken, last, c :: rest, caps⟩

/-- Reads as few characters of the class as possible and then more, until `k` succeeds. -/
def runFew (ok : Char → Bool) (k : Cursor → Option Cursor) :
    Nat → Option Char → List Char → List Capture → Option Cursor
  | taken, last, [], caps => k ⟨taken, last, [], caps⟩
  | taken, last, c :: rest, caps =>
    match k ⟨taken, last, c :: rest, caps⟩ with
    | some e => some e
    | none => if ok c then runFew ok k (taken + 1) (some c) rest caps else none

/-- Reads the pattern and goes on with `k`, taking the preferred reading from which `k` succeeds. -/
def run : Pattern → Cursor → (Cursor → Option Cursor) → Option Cursor
  | empty, cur, k => k cur
  | char ok, cur, k =>
    match cur.rest with
    | [] => none
    | c :: rest => if ok c then k (cur.after c rest) else none
  | many ok, cur, k => runMany ok k cur.taken cur.last cur.rest cur.captures
  | few ok, cur, k => runFew ok k cur.taken cur.last cur.rest cur.captures
  | seq p q, cur, k => run p cur fun e => run q e k
  | either p q, cur, k =>
    match run p cur k with
    | some e => some e
    | none => run q cur k
  | group n p, cur, k => run p cur fun e => k (e.close cur n)
  | lineStart, cur, k => if cur.atLineStart then k cur else none
  | textEnd, cur, k => if cur.rest.isEmpty then k cur else none
  | wordEdge, cur, k => if cur.atWordEdge then k cur else none

theorem runMany_eq (ok : Char → Bool) (k : Cursor → Option Cursor) (rest : List Char) :
    ∀ taken last caps, runMany ok k taken last rest caps =
      (reads ok taken last rest caps).reverse.findSome? k := by
  induction rest with
  | nil =>
    intro taken last caps
    simp [runMany, reads]
  | cons c rest ih =>
    intro taken last caps
    by_cases h : ok c
    · simp only [runMany, reads, h, if_true, ih, List.reverse_cons, List.findSome?_append,
        List.findSome?_singleton]
      cases (reads ok (taken + 1) (some c) rest caps).reverse.findSome? k <;> rfl
    · simp [runMany, reads, h]

theorem runFew_eq (ok : Char → Bool) (k : Cursor → Option Cursor) (rest : List Char) :
    ∀ taken last caps, runFew ok k taken last rest caps =
      (reads ok taken last rest caps).findSome? k := by
  induction rest with
  | nil =>
    intro taken last caps
    simp only [runFew, reads, List.findSome?_cons, List.findSome?_nil]
    cases k ⟨taken, last, [], caps⟩ <;> rfl
  | cons c rest ih =>
    intro taken last caps
    simp only [runFew, reads, List.findSome?_cons]
    cases k ⟨taken, last, c :: rest, caps⟩ with
    | some e => rfl
    | none => by_cases h : ok c <;> simp [h, ih]

theorem findSome?_flatMap_ends (f : Cursor → List Cursor) (k : Cursor → Option Cursor)
    (l : List Cursor) : (l.flatMap f).findSome? k = l.findSome? fun e => (f e).findSome? k := by
  induction l with
  | nil => rfl
  | cons e l ih =>
    rw [List.flatMap_cons, List.findSome?_append, ih, List.findSome?_cons]
    cases (f e).findSome? k <;> rfl

/-- Matching finds the preferred place from which the rest succeeds. -/
theorem run_eq_findSome? (p : Pattern) :
    ∀ (cur : Cursor) (k : Cursor → Option Cursor), p.run cur k = (p.ends cur).findSome? k := by
  induction p with
  | empty => intro cur k; simp [run, ends]
  | char ok =>
    intro cur k
    cases h : cur.rest with
    | nil => simp [run, ends, h]
    | cons c rest => by_cases hc : ok c <;> simp [run, ends, h, hc]
  | many ok => intro cur k; exact runMany_eq ok k cur.rest _ _ _
  | few ok => intro cur k; exact runFew_eq ok k cur.rest _ _ _
  | seq p q ihp ihq =>
    intro cur k
    have hq : (fun e => run q e k) = fun e => (ends q e).findSome? k := funext fun e => ihq e k
    rw [run, ihp, hq, ends, findSome?_flatMap_ends]
  | either p q ihp ihq =>
    intro cur k
    rw [run, ihp, ihq, ends, List.findSome?_append]
    cases (ends p cur).findSome? k <;> rfl
  | group n p ih =>
    intro cur k
    rw [run, ih, ends, List.findSome?_map]
    rfl
  | lineStart => intro cur k; by_cases h : cur.atLineStart <;> simp [run, ends, h]
  | textEnd => intro cur k; by_cases h : cur.rest.isEmpty <;> simp [run, ends, h]
  | wordEdge => intro cur k; by_cases h : cur.atWordEdge <;> simp [run, ends, h]

/-! ## What a reading takes -/

/-- The second place follows the first one after the characters `w`. -/
def Cursor.Reaches (cur : Cursor) (w : List Char) (e : Cursor) : Prop :=
  cur.rest = w ++ e.rest ∧ e.taken = cur.taken + w.length ∧ e.last = w.getLast?.or cur.last

theorem Cursor.Reaches.refl (cur : Cursor) : cur.Reaches [] cur := by
  simp [Cursor.Reaches]

theorem Cursor.Reaches.trans {cur mid e : Cursor} {v w : List Char} (h : cur.Reaches v mid)
    (h' : mid.Reaches w e) : cur.Reaches (v ++ w) e := by
  obtain ⟨hr, ht, hl⟩ := h
  obtain ⟨hr', ht', hl'⟩ := h'
  refine ⟨by rw [hr, hr', List.append_assoc], by rw [ht', ht, List.length_append]; omega, ?_⟩
  rw [hl', hl, List.getLast?_append, Option.or_assoc]

/-- A repetition stops behind characters of its class. -/
theorem reaches_of_mem_reads {ok : Char → Bool} {e : Cursor} (rest : List Char) :
    ∀ {taken last caps}, e ∈ reads ok taken last rest caps →
      ∃ w, Cursor.Reaches ⟨taken, last, rest, caps⟩ w e ∧ ∀ c ∈ w, ok c = true := by
  induction rest with
  | nil =>
    intro taken last caps h
    obtain rfl := List.mem_singleton.mp h
    exact ⟨[], .refl _, by simp⟩
  | cons c rest ih =>
    intro taken last caps h
    rw [reads] at h
    rcases List.mem_cons.mp h with rfl | h
    · exact ⟨[], .refl _, by simp⟩
    · by_cases hc : ok c
      · rw [if_pos hc] at h
        obtain ⟨w, hw, hok⟩ := ih h
        refine ⟨c :: w, ?_, by simpa [hc] using hok⟩
        exact Cursor.Reaches.trans (v := [c]) ⟨rfl, rfl, rfl⟩ hw
      · simp [hc] at h

/-- The pattern can read the text `w`, with the character `last` before it and the text `rest`
after it. -/
def Reads : Pattern → Option Char → List Char → List Char → Prop
  | empty, _, w, _ => w = []
  | char ok, _, w, _ => ∃ c, ok c = true ∧ w = [c]
  | many ok, _, w, _ => ∀ c ∈ w, ok c = true
  | few ok, _, w, _ => ∀ c ∈ w, ok c = true
  | seq p q, last, w, rest =>
    ∃ u v, w = u ++ v ∧ Reads p last u (v ++ rest) ∧ Reads q (u.getLast?.or last) v rest
  | either p q, last, w, rest => Reads p last w rest ∨ Reads q last w rest
  | group _ p, last, w, rest => Reads p last w rest
  | lineStart, last, w, _ => w = [] ∧ (last = none ∨ last = some '\n')
  | textEnd, _, w, rest => w = [] ∧ rest = []
  | wordEdge, last, w, rest =>
    w = [] ∧ last.any Text.isWord ≠ rest.head?.any Text.isWord

theorem Cursor.atLineStart_iff {cur : Cursor} :
    cur.atLineStart = true ↔ cur.last = none ∨ cur.last = some '\n' := by
  rw [Cursor.atLineStart]
  cases cur.last <;> simp

/-- A reading stops behind a text that the pattern can read where it started. -/
theorem reads_of_mem_ends (p : Pattern) :
    ∀ {cur e : Cursor}, e ∈ p.ends cur → ∃ w, cur.Reaches w e ∧ p.Reads cur.last w e.rest := by
  induction p with
  | empty =>
    intro cur e h
    exact ⟨[], List.mem_singleton.mp h ▸ .refl cur, rfl⟩
  | char ok =>
    intro cur e h
    rw [ends] at h
    split at h
    · simp at h
    · rename_i c rest hr
      split at h
      · rename_i hc
        obtain rfl := List.mem_singleton.mp h
        exact ⟨[c], by simp [Cursor.Reaches, Cursor.after, hr], c, hc, rfl⟩
      · simp at h
  | many ok =>
    intro cur e h
    exact reaches_of_mem_reads cur.rest (List.mem_reverse.mp h)
  | few ok =>
    intro cur e h
    exact reaches_of_mem_reads cur.rest h
  | seq p q ihp ihq =>
    intro cur e h
    obtain ⟨mid, hm, he⟩ := List.mem_flatMap.mp h
    obtain ⟨v, hv, hp⟩ := ihp hm
    obtain ⟨w, hw, hq⟩ := ihq he
    refine ⟨v ++ w, hv.trans hw, v, w, rfl, ?_, ?_⟩
    · exact hw.1 ▸ hp
    · exact hv.2.2 ▸ hq
  | either p q ihp ihq =>
    intro cur e h
    rcases List.mem_append.mp h with h | h
    · obtain ⟨w, hw, hp⟩ := ihp h
      exact ⟨w, hw, Or.inl hp⟩
    · obtain ⟨w, hw, hq⟩ := ihq h
      exact ⟨w, hw, Or.inr hq⟩
  | group n p ih =>
    intro cur e h
    obtain ⟨e', he', rfl⟩ := List.mem_map.mp h
    obtain ⟨w, hw, hp⟩ := ih he'
    exact ⟨w, hw, hp⟩
  | lineStart =>
    intro cur e h
    rw [ends] at h
    split at h
    · rename_i hl
      obtain rfl := List.mem_singleton.mp h
      exact ⟨[], .refl _, rfl, Cursor.atLineStart_iff.mp hl⟩
    · simp at h
  | textEnd =>
    intro cur e h
    rw [ends] at h
    split at h
    · rename_i hr
      obtain rfl := List.mem_singleton.mp h
      exact ⟨[], .refl _, rfl, List.isEmpty_iff.mp hr⟩
    · simp at h
  | wordEdge =>
    intro cur e h
    rw [ends] at h
    split at h
    · rename_i hw
      obtain rfl := List.mem_singleton.mp h
      exact ⟨[], .refl _, rfl, bne_iff_ne.mp hw⟩
    · simp at h

/-! ## Composed patterns -/

/-- Reads the patterns one after the other. -/
def all : List Pattern → Pattern
  | [] => empty
  | [p] => p
  | p :: ps => seq p (all ps)

/-- Reads the first of the patterns that leads on. -/
def anyOf : List Pattern → Pattern
  | [] => char fun _ => false
  | [p] => p
  | p :: ps => either p (anyOf ps)

/-- Reads the pattern or, failing that, nothing. -/
def optional (p : Pattern) : Pattern := either p empty

/-- Reads at least one character of the class. -/
def some1 (ok : Char → Bool) : Pattern := seq (char ok) (many ok)

/-- Reads this character. -/
def this (c : Char) : Pattern := char (· == c)

/-- Reads this text. -/
def text (s : String) : Pattern := all (s.toList.map this)

/-- The character and the given lowercase letter are the same when case is folded one to one. Beyond
ASCII the long s U+017F folds to `s` and the Kelvin sign U+212A to `k`. -/
def foldsTo (letter c : Char) : Bool :=
  c.toLower == letter || (letter == 's' && c == '\u017F') || (letter == 'k' && c == '\u212A')

/-- Reads this lowercase text in any letter case. -/
def anyCase (s : String) : Pattern := all (s.toList.map fun letter => char (foldsTo letter))

/-- The highest number of a group. -/
def groupCount : Pattern → Nat
  | seq p q => max (groupCount p) (groupCount q)
  | either p q => max (groupCount p) (groupCount q)
  | group n p => max n (groupCount p)
  | _ => 0

end Pattern
end Workbench
