import Mathlib.Data.List.Forall2
import Workbench.Pattern.Scan

/-!
# Which texts a pattern reads

`Pattern.Reads` forgets the preferences of a pattern; `Pattern.Prefers` is about the reading that
comes first. Both are built up along the pattern.

* `exists_mem_ends`: every text that a pattern can read is one of its readings, so that
  `readAt_eq_none` decides a failure without running the pattern.
* `readAt_of_prefers`: the preferred reading is the one that matching takes, with its captures.
* `Reads.ne_nil` and `Reads.of_selfContained`: two checks of the shape of a pattern, one that it
  never reads nothing and one that what it reads does not depend on the text behind.
-/

namespace Workbench.Pattern

variable {p q : Pattern} {last : Option Char} {u v w rest : List Char}

/-! ## Reading and matching -/

theorem mem_reads_of_all {ok : Char → Bool} {w : List Char} (h : ∀ c ∈ w, ok c = true) :
    ∀ {taken last caps}, (⟨taken + w.length, w.getLast?.or last, rest, caps⟩ : Cursor) ∈
      reads ok taken last (w ++ rest) caps := by
  induction w with
  | nil =>
    intro taken last caps
    cases rest <;> simp [reads]
  | cons c w ih =>
    intro taken last caps
    have hw : (⟨taken + 1 + w.length, w.getLast?.or (some c), rest, caps⟩ : Cursor) ∈
        reads ok (taken + 1) (some c) (w ++ rest) caps :=
      ih fun d hd => h d (List.mem_cons_of_mem c hd)
    rw [List.cons_append, reads, if_pos (h c List.mem_cons_self)]
    refine List.mem_cons_of_mem _ ?_
    rw [List.getLast?_cons, Option.some_or, List.length_cons]
    rw [show taken + 1 + w.length = taken + (w.length + 1) by omega] at hw
    cases hl : w.getLast? with
    | none => simpa [hl] using hw
    | some d => simpa [hl] using hw

theorem exists_mem_ends (p : Pattern) : ∀ {last w rest}, p.Reads last w rest →
    ∀ {cur : Cursor}, cur.last = last → cur.rest = w ++ rest →
      ∃ e ∈ p.ends cur, cur.Reaches w e ∧ e.rest = rest := by
  induction p with
  | empty =>
    rintro last w rest rfl cur hl hr
    exact ⟨cur, by simp [ends], .refl cur, hr⟩
  | char ok =>
    rintro last w rest ⟨c, hc, rfl⟩ cur hl hr
    refine ⟨cur.after c rest, ?_, ?_, rfl⟩
    · simp [ends, hr, hc]
    · simp [Cursor.Reaches, Cursor.after, hr]
  | many ok =>
    intro last w rest h cur hl hr
    refine ⟨⟨cur.taken + w.length, w.getLast?.or cur.last, rest, cur.captures⟩, ?_,
      ⟨hr, rfl, rfl⟩, rfl⟩
    rw [ends, List.mem_reverse, hr]
    exact mem_reads_of_all h
  | few ok =>
    intro last w rest h cur hl hr
    refine ⟨⟨cur.taken + w.length, w.getLast?.or cur.last, rest, cur.captures⟩, ?_,
      ⟨hr, rfl, rfl⟩, rfl⟩
    rw [ends, hr]
    exact mem_reads_of_all h
  | seq p q ihp ihq =>
    rintro last w rest ⟨u, v, rfl, hp, hq⟩ cur rfl hr
    obtain ⟨mid, hm, hu, hmr⟩ := ihp hp rfl (by rw [hr, List.append_assoc])
    obtain ⟨e, he, hv, her⟩ := ihq hq hu.2.2 hmr
    exact ⟨e, List.mem_flatMap.mpr ⟨mid, hm, he⟩, hu.trans hv, her⟩
  | either p q ihp ihq =>
    rintro last w rest (h | h) cur hl hr
    · obtain ⟨e, he, hw⟩ := ihp h hl hr
      exact ⟨e, List.mem_append_left _ he, hw⟩
    · obtain ⟨e, he, hw⟩ := ihq h hl hr
      exact ⟨e, List.mem_append_right _ he, hw⟩
  | group n p ih =>
    intro last w rest h cur hl hr
    obtain ⟨e, he, hw, her⟩ := ih h hl hr
    exact ⟨e.close cur n, List.mem_map.mpr ⟨e, he, rfl⟩, hw, her⟩
  | lineStart =>
    rintro last w rest ⟨rfl, h⟩ cur rfl hr
    exact ⟨cur, by simp [ends, Cursor.atLineStart_iff.mpr h], .refl cur, hr⟩
  | textEnd =>
    rintro last w rest ⟨rfl, rfl⟩ cur rfl hr
    exact ⟨cur, by simp [ends, hr], .refl cur, hr⟩
  | wordEdge =>
    rintro last w rest ⟨rfl, h⟩ cur rfl hr
    refine ⟨cur, ?_, .refl cur, hr⟩
    rw [List.nil_append] at hr
    simpa [ends, Cursor.atWordEdge, hr] using h

/-- Nothing is read at a place exactly when the pattern can read no beginning of the text there. -/
theorem readAt_eq_none {s : List Char} :
    p.readAt last s = none ↔ ∀ w rest, s = w ++ rest → ¬ p.Reads last w rest := by
  rw [readAt, Option.map_eq_none_iff, run_eq_findSome?, List.findSome?_eq_none_iff]
  constructor
  · rintro h w rest rfl hp
    obtain ⟨e, he, -⟩ : ∃ e ∈ p.ends ⟨0, last, w ++ rest, []⟩, _ :=
      exists_mem_ends p hp rfl rfl
    exact Option.some_ne_none e (h e he)
  · intro h e he
    obtain ⟨w, hw, hp⟩ := reads_of_mem_ends p he
    exact absurd hp (h w e.rest hw.1)

/-- What is read at a place is a beginning of the text that the pattern can read. -/
theorem reads_of_readAt {s : List Char} {h : Hit} (hr : p.readAt last s = some h) :
    s = h.text ++ h.after ∧ p.Reads last h.text h.after := by
  obtain ⟨e, he, hs, ha, -⟩ := readAt_eq_some hr
  obtain ⟨w, hw, hp⟩ := reads_of_mem_ends p (List.mem_of_mem_head? he)
  have hw' : s = w ++ e.rest := hw.1
  obtain rfl : h.text = w := List.append_cancel_right (hs.symm.trans hw')
  exact ⟨ha ▸ hs, ha ▸ hp⟩

/-! ## The preferred reading -/

/-- The first reading of the pattern, with `last` before it and `rest` after it, is `w`, and its
groups are `caps`. -/
def Prefers (p : Pattern) (last : Option Char) (w rest : List Char) (caps : List Capture) : Prop :=
  ∀ cur : Cursor, cur.last = last → cur.rest = w ++ rest →
    (p.ends cur).head? =
      some ⟨cur.taken + w.length, w.getLast?.or last, rest, caps ++ cur.captures⟩

theorem readAt_of_prefers {caps : List Capture} (h : p.Prefers last w rest caps) :
    p.readAt last (w ++ rest) = some ⟨w, caps, rest⟩ := by
  have he := h ⟨0, last, w ++ rest, []⟩ rfl rfl
  rw [readAt, run_eq_findSome?]
  cases hl : p.ends ⟨0, last, w ++ rest, []⟩ with
  | nil => simp [hl] at he
  | cons e l =>
    obtain rfl : e = _ := Option.some.inj (hl ▸ he)
    simp

/-- No character of the class stands at the beginning of the text. -/
def Stops (ok : Char → Bool) (s : List Char) : Prop := ∀ c, s.head? = some c → ok c = false

theorem stops_cons {ok : Char → Bool} {c : Char} {s : List Char} :
    Stops ok (c :: s) ↔ ok c = false := by
  constructor
  · intro h
    exact h c rfl
  · intro h d hd
    rwa [← Option.some.inj hd]

theorem Stops.append {ok : Char → Bool} {s : List Char} (hw : ∀ c ∈ w, ok c = false)
    (hs : Stops ok s) : Stops ok (w ++ s) := by
  cases w with
  | nil => exact hs
  | cons c w => exact stops_cons.mpr (hw c List.mem_cons_self)

theorem stops_append_iff {ok : Char → Bool} {s : List Char} (hw : w ≠ []) :
    Stops ok (w ++ s) ↔ Stops ok w := by
  obtain ⟨c, w, rfl⟩ := List.exists_cons_of_ne_nil hw
  rw [List.cons_append, stops_cons, stops_cons]

theorem stops_iff_any_head? {ok : Char → Bool} {s : List Char} :
    Stops ok s ↔ s.head?.any ok = false := by
  cases s with
  | nil => exact iff_of_true (fun c hc => absurd hc.symm (Option.some_ne_none c)) rfl
  | cons c s => exact stops_cons

theorem Stops.assoc {ok : Char → Bool} {s : List Char} (h : Stops ok (v ++ (w ++ s))) :
    Stops ok (v ++ w ++ s) := by
  rwa [List.append_assoc]

/-- A beginning whose characters are all in the class ends before a text that begins with none. -/
theorem prefix_of_stops {ok : Char → Bool} {s : List Char} (h : w <+: u ++ s)
    (hw : ∀ c ∈ w, ok c = true) (hs : Stops ok s) : w <+: u := by
  refine (List.prefix_or_prefix_of_prefix h (List.prefix_append u s)).elim id ?_
  rintro ⟨v, rfl⟩
  obtain ⟨x, hx⟩ := (List.prefix_append_right_inj u).mp h
  cases v with
  | nil => simp
  | cons c v =>
    have hc : ok c = false := hs c (hx ▸ rfl)
    exact absurd (hw c (by simp)) (by simp [hc])

/-- A run of characters of the class is dropped, and nothing behind it. -/
theorem dropWhile_run {ok : Char → Bool} {s : List Char} (hw : ∀ c ∈ w, ok c = true)
    (hs : Stops ok s) : (w ++ s).dropWhile ok = s := by
  rw [List.dropWhile_append_of_pos hw]
  cases s with
  | nil => rfl
  | cons c s => rw [List.dropWhile_cons_of_neg (by simp [stops_cons.mp hs])]

theorem takeWhile_run {ok : Char → Bool} {s : List Char} (hw : ∀ c ∈ w, ok c = true)
    (hs : Stops ok s) : (w ++ s).takeWhile ok = w := by
  rw [List.takeWhile_append_of_pos hw]
  cases s with
  | nil => simp
  | cons c s => rw [List.takeWhile_cons_of_neg (by simp [stops_cons.mp hs]), List.append_nil]

theorem stops_dropWhile (ok : Char → Bool) (s : List Char) : Stops ok (s.dropWhile ok) := by
  intro c hc
  have h := List.head?_dropWhile_not ok s
  rw [hc] at h
  simpa using h

namespace Prefers

variable {caps caps' : List Capture}

theorem empty : Prefers .empty last [] rest [] := by
  rintro ⟨taken, _, _, _⟩ rfl rfl
  simp [ends]

theorem char {ok : Char → Bool} {c : Char} (h : ok c = true) :
    Prefers (.char ok) last [c] rest [] := by
  rintro ⟨taken, _, _, _⟩ rfl rfl
  simp [ends, h, Cursor.after]

theorem head?_reverse_reads {ok : Char → Bool} (hw : ∀ c ∈ w, ok c = true)
    (hr : Stops ok rest) : ∀ {taken last caps},
    (reads ok taken last (w ++ rest) caps).reverse.head? =
      some ⟨taken + w.length, w.getLast?.or last, rest, caps⟩ := by
  induction w with
  | nil =>
    intro taken last caps
    cases rest with
    | nil => simp [reads]
    | cons c rest => simp [reads, hr c rfl]
  | cons c w ih =>
    intro taken last caps
    rw [List.cons_append, reads, if_pos (hw c List.mem_cons_self), List.reverse_cons,
      List.head?_append, ih (fun d hd => hw d (List.mem_cons_of_mem c hd)), Option.some_or,
      List.getLast?_cons, List.length_cons]
    cases w.getLast? with
    | none => simp; omega
    | some d => simp; omega

/-- A repetition takes all characters of its class. -/
theorem many {ok : Char → Bool} (hw : ∀ c ∈ w, ok c = true)
    (hr : Stops ok rest) : Prefers (.many ok) last w rest [] := by
  rintro ⟨taken, _, _, _⟩ rfl rfl
  exact head?_reverse_reads hw hr

theorem many_nil {ok : Char → Bool} (hr : Stops ok rest) : Prefers (.many ok) last [] rest [] :=
  .many (fun _ hc => absurd hc List.not_mem_nil) hr

/-- A reluctant repetition first reads nothing. -/
theorem few_nil {ok : Char → Bool} : Prefers (.few ok) last [] rest [] := by
  rintro ⟨taken, _, s, _⟩ rfl rfl
  cases s <;> rfl

theorem seq (hp : p.Prefers last u (v ++ rest) caps)
    (hq : q.Prefers (u.getLast?.or last) v rest caps') :
    Prefers (.seq p q) last (u ++ v) rest (caps' ++ caps) := by
  rintro ⟨taken, last, _, cs⟩ rfl rfl
  have h := hp ⟨taken, last, u ++ (v ++ rest), cs⟩ rfl rfl
  rw [ends, List.append_assoc]
  cases hl : p.ends ⟨taken, last, u ++ (v ++ rest), cs⟩ with
  | nil => simp [hl] at h
  | cons mid l =>
    obtain rfl : mid = _ := Option.some.inj (hl ▸ h)
    rw [List.flatMap_cons, List.head?_append, hq _ rfl rfl, Option.some_or,
      List.getLast?_append, Option.or_assoc, List.length_append]
    simp [Nat.add_assoc]

theorem andThen (hp : p.Prefers last u (v ++ rest) [])
    (hq : q.Prefers (u.getLast?.or last) v rest caps) : Prefers (.seq p q) last (u ++ v) rest caps := by
  have h := hp.seq hq
  rwa [List.append_nil] at h

theorem seq_assoc {r : Pattern} (h : Prefers (.seq (.seq p q) r) last w rest caps) :
    Prefers (.seq p (.seq q r)) last w rest caps := by
  intro cur hl hr
  have he := h cur hl hr
  rw [ends, ends, List.flatMap_assoc] at he
  exact he

theorem left (hp : p.Prefers last w rest caps) : Prefers (.either p q) last w rest caps := by
  intro cur hl hr
  rw [ends, List.head?_append, hp cur hl hr, Option.some_or]

/-- An alternative is taken when the one before it can read nothing here. -/
theorem right (hp : ∀ u v, w ++ rest = u ++ v → ¬ p.Reads last u v)
    (hq : q.Prefers last w rest caps) : Prefers (.either p q) last w rest caps := by
  intro cur hl hr
  have hn : p.ends cur = [] := by
    refine List.eq_nil_iff_forall_not_mem.mpr fun e he => ?_
    obtain ⟨u, hu, hpu⟩ := reads_of_mem_ends p he
    exact hp u e.rest (hr ▸ hu.1) (hl ▸ hpu)
  rw [ends, hn, List.nil_append, hq cur hl hr]

theorem group (n : Nat) (hp : p.Prefers last w rest caps) :
    Prefers (.group n p) last w rest (⟨n, w ++ rest, w.length⟩ :: caps) := by
  intro cur hl hr
  rw [ends, List.head?_map, hp cur hl hr]
  simp [Cursor.close, hr]

theorem lineStart (h : last = none ∨ last = some '\n') : Prefers .lineStart last [] rest [] := by
  rintro ⟨taken, last', rest', cs⟩ hl hr
  obtain rfl : last' = last := hl
  obtain rfl : rest' = rest := hr
  have hs : (⟨taken, last', rest', cs⟩ : Cursor).atLineStart = true :=
    Cursor.atLineStart_iff.mpr h
  simp only [ends, hs, if_true]
  simp

theorem wordEdge (h : last.any Text.isWord ≠ rest.head?.any Text.isWord) :
    Prefers .wordEdge last [] rest [] := by
  rintro ⟨taken, last', rest', cs⟩ hl hr
  obtain rfl : last' = last := hl
  obtain rfl : rest' = rest := hr
  have he : (⟨taken, last', rest', cs⟩ : Cursor).atWordEdge = true := bne_iff_ne.mpr h
  simp only [ends, he, if_true]
  simp

end Prefers
/-! ## Composed patterns -/

theorem reads_all_map {α : Type} (ok : α → Char → Bool) (l : List α) : ∀ {last w},
    (all (l.map fun a => .char (ok a))).Reads last w rest ↔
      List.Forall₂ (fun a c => ok a c = true) l w := by
  induction l with
  | nil =>
    intro last w
    cases w <;> simp [all, Reads]
  | cons a l ih =>
    intro last w
    cases l with
    | nil =>
      constructor
      · rintro ⟨c, hc, rfl⟩
        exact .cons hc .nil
      · rintro (_ | ⟨hc, _ | _⟩)
        exact ⟨_, hc, rfl⟩
    | cons b l =>
      constructor
      · rintro ⟨u, v, rfl, ⟨c, hc, rfl⟩, hv⟩
        exact .cons hc (ih.mp hv)
      · rintro (_ | ⟨hc, hw⟩)
        exact ⟨[_], _, rfl, ⟨_, hc, rfl⟩, ih.mpr hw⟩

@[simp] theorem reads_text (s : String) : (text s).Reads last w rest ↔ w = s.toList := by
  rw [text, show this = fun a => .char (· == a) from rfl, reads_all_map]
  simp only [beq_iff_eq]
  generalize s.toList = l
  induction l generalizing w with
  | nil => cases w <;> simp
  | cons a l ih => cases w <;> simp [ih]

theorem reads_anyCase (s : String) :
    (anyCase s).Reads last w rest ↔
      List.Forall₂ (fun letter c => foldsTo letter c = true) s.toList w :=
  reads_all_map _ _

theorem ends_all_append {ps qs : List Pattern} (hqs : qs ≠ []) :
    ∀ cur, (all (ps ++ qs)).ends cur = (seq (all ps) (all qs)).ends cur := by
  induction ps with
  | nil => intro cur; exact (List.flatMap_singleton _ cur).symm
  | cons p ps ih =>
    intro cur
    cases ps with
    | nil =>
      obtain ⟨q, qs, rfl⟩ := List.exists_cons_of_ne_nil hqs
      rfl
    | cons p' ps =>
      have hs : (all (p :: p' :: ps ++ qs)).ends cur =
          (p.ends cur).flatMap (all (p' :: ps ++ qs)).ends := rfl
      rw [hs, funext ih]
      exact List.flatMap_assoc.symm

/-- Patterns are preferred one after the other, a few of them first and then the others. -/
theorem Prefers.all_append (ps qs : List Pattern) {caps : List Capture} (hqs : qs ≠ [])
    (hp : (all ps).Prefers last u (v ++ rest) [])
    (hq : (all qs).Prefers (u.getLast?.or last) v rest caps) :
    (all (ps ++ qs)).Prefers last (u ++ v) rest caps := by
  intro cur hl hr
  rw [ends_all_append hqs]
  exact hp.andThen hq cur hl hr

theorem Prefers.all_map {α : Type} {ok : α → Char → Bool} {l : List α}
    (h : List.Forall₂ (fun a c => ok a c = true) l w) :
    Prefers (all (l.map fun a => .char (ok a))) last w rest [] := by
  induction h generalizing last with
  | nil => exact .empty
  | @cons a c l w hc hw ih =>
    cases l with
    | nil =>
      cases hw
      exact .char hc
    | cons b l => exact .seq (u := [c]) (.char hc) ih

theorem Prefers.text (s : String) : Prefers (text s) last s.toList rest [] := by
  refine .all_map ?_
  rw [List.forall₂_same]
  exact fun c _ => beq_self_eq_true c

theorem Prefers.anyCase {s : String}
    (h : List.Forall₂ (fun letter c => foldsTo letter c = true) s.toList w) :
    Prefers (anyCase s) last w rest [] :=
  .all_map h

theorem Prefers.some1 {ok : Char → Bool} {c : Char} (hc : ok c = true)
    (hw : ∀ c ∈ w, ok c = true) (hr : Stops ok rest) :
    Prefers (some1 ok) last (c :: w) rest [] :=
  .seq (u := [c]) (.char hc) (.many hw hr)

theorem prefers_skip {p : Pattern} (h : ∀ u v, rest = u ++ v → ¬ p.Reads last u v) :
    (optional p).Prefers last [] rest [] := .right h .empty

theorem prefers_skip_this {c : Char} (h : Stops (· == c) rest) :
    (optional (this c)).Prefers last [] rest [] := by
  refine prefers_skip fun u v hs hr => ?_
  obtain ⟨d, hd, rfl⟩ := hr
  rw [hs] at h
  exact Bool.false_ne_true ((stops_cons.mp h).symm.trans hd)

theorem not_reads_seq_this {c : Char} {q : Pattern} {s : List Char} (h : Stops (· == c) s) :
    ∀ u v, s = u ++ v → ¬ (seq (this c) q).Reads last u v := by
  intro u v hs hr
  obtain ⟨_, _, rfl, ⟨d, hd, rfl⟩, -⟩ := hr
  rw [hs] at h
  exact Bool.false_ne_true ((stops_cons.mp h).symm.trans hd)

theorem prefers_wordEdge (hl : last.any Text.isWord = true) (h : Stops Text.isWord rest) :
    wordEdge.Prefers last [] rest [] := by
  refine .wordEdge ?_
  cases rest with
  | nil => simp [hl]
  | cons c rest => simp [hl, stops_cons.mp h]

theorem reads_some1 {ok : Char → Bool} :
    (some1 ok).Reads last w rest ↔ ∃ c v, w = c :: v ∧ ok c = true ∧ ∀ d ∈ v, ok d = true := by
  constructor
  · rintro ⟨u, v, rfl, ⟨c, hc, rfl⟩, hv⟩
    exact ⟨c, v, rfl, hc, hv⟩
  · rintro ⟨c, v, rfl, hc, hv⟩
    exact ⟨[c], v, rfl, ⟨c, hc, rfl⟩, hv⟩

/-! ## Two checks of the shape of a pattern -/

/-- Every reading takes a character. -/
def takesSome : Pattern → Bool
  | char _ => true
  | seq p q => takesSome p || takesSome q
  | either p q => takesSome p && takesSome q
  | group _ p => takesSome p
  | _ => false

/-- What the pattern reads does not depend on the text behind it: an anchor that looks ahead has
something to read after it. -/
def selfContained : Pattern → Bool
  | seq p q => (selfContained p || takesSome q) && selfContained q
  | either p q => selfContained p && selfContained q
  | group _ p => selfContained p
  | textEnd => false
  | wordEdge => false
  | _ => true

theorem Reads.ne_nil (hp : p.takesSome = true) (h : p.Reads last w rest) : w ≠ [] := by
  induction p generalizing last w rest with
  | char ok =>
    obtain ⟨c, -, rfl⟩ := h
    simp
  | seq p q ihp ihq =>
    obtain ⟨u, v, rfl, hu, hv⟩ := h
    rcases Bool.or_eq_true _ _ ▸ hp with hp | hq
    · simp [ihp hp hu]
    · simp [ihq hq hv]
  | either p q ihp ihq =>
    obtain ⟨hp, hq⟩ := Bool.and_eq_true _ _ ▸ hp
    rcases h with h | h
    · exact ihp hp h
    · exact ihq hq h
  | group n p ih => exact ih hp h
  | _ => simp [takesSome] at hp

/-- Anchors look at no more than the next character. -/
theorem Reads.of_head?_eq {rest' : List Char} (hr : rest.head? = rest'.head?)
    (h : p.Reads last w rest) : p.Reads last w rest' := by
  induction p generalizing last w rest rest' with
  | seq p q ihp ihq =>
    obtain ⟨u, v, rfl, hu, hv⟩ := h
    exact ⟨u, v, rfl, ihp (by cases v <;> simp [hr]) hu, ihq hr hv⟩
  | either p q ihp ihq => exact h.imp (ihp hr) (ihq hr)
  | group n p ih => exact ih hr h
  | textEnd =>
    obtain ⟨rfl, rfl⟩ := h
    exact ⟨rfl, List.head?_eq_none_iff.mp hr.symm⟩
  | wordEdge =>
    obtain ⟨rfl, h⟩ := h
    exact ⟨rfl, hr ▸ h⟩
  | _ => exact h

theorem Reads.of_selfContained {rest' : List Char} (hp : p.selfContained = true)
    (h : p.Reads last w rest) : p.Reads last w rest' := by
  induction p generalizing last w rest rest' with
  | seq p q ihp ihq =>
    obtain ⟨u, v, rfl, hu, hv⟩ := h
    obtain ⟨hpq, hq⟩ := Bool.and_eq_true _ _ ▸ hp
    refine ⟨u, v, rfl, ?_, ihq hq hv⟩
    rcases Bool.or_eq_true _ _ ▸ hpq with hp | hq
    · exact ihp hp hu
    · obtain ⟨c, v, rfl⟩ := List.exists_cons_of_ne_nil (hv.ne_nil hq)
      have hc : (c :: v ++ rest).head? = (c :: v ++ rest').head? := rfl
      exact hu.of_head?_eq hc
  | either p q ihp ihq =>
    obtain ⟨hp, hq⟩ := Bool.and_eq_true _ _ ▸ hp
    exact h.imp (ihp hp) (ihq hq)
  | group n p ih => exact ih hp h
  | textEnd => simp [selfContained] at hp
  | wordEdge => simp [selfContained] at hp
  | _ => exact h

end Workbench.Pattern
