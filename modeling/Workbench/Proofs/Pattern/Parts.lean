import Workbench.Proofs.Pattern.Captures

/-!
# Rewriting a text in two parts

A text comes apart where a piece of it ends and the next one begins (`ComesApart`). What is read in
the whole text before that place is what is read in the first part alone (`readAt_of_append`), so the
pieces are those of the two parts (`Cuts.split`) and the text is rewritten part by part
(`replace_append`).

* `filter_ends_extend`: of the readings in the longer text those that leave the second part alone are
  the readings in the shorter one, in the same order.
* `readAt_congr_last`: a pattern that begins with a character does not look at what stands before it.
-/

namespace Workbench.Pattern

variable {p q : Pattern} {cur e : Cursor} {last : Option Char} {s u w rest : List Char} {k : Nat}

/-! ## Places in a longer text -/

/-- The capture in the text with `s` behind it. -/
def Capture.extend (c : Capture) (s : List Char) : Capture := { c with start := c.start ++ s }

/-- The place in the text with `s` behind it. -/
def Cursor.extend (cur : Cursor) (s : List Char) : Cursor :=
  { cur with rest := cur.rest ++ s, captures := cur.captures.map (·.extend s) }

/-- The reading in the text with `s` behind it. -/
def Hit.extend (h : Hit) (s : List Char) : Hit :=
  { h with captures := h.captures.map (·.extend s), after := h.after ++ s }

/-- At least `k` characters stand behind the place. -/
def Cursor.leaves (k : Nat) (e : Cursor) : Bool := k ≤ e.rest.length

theorem Cursor.leaves_extend : (e.extend s).leaves (s.length + k) = e.leaves k := by
  simp only [leaves, extend, List.length_append, decide_eq_decide]
  omega

theorem length_rest_le (he : e ∈ p.ends cur) : e.rest.length ≤ cur.rest.length := by
  obtain ⟨w, ⟨hr, -⟩, -⟩ := reads_of_mem_ends p he
  rw [hr, List.length_append]
  exact Nat.le_add_left _ _

theorem length_rest_lt (hp : p.takesSome = true) (he : e ∈ p.ends cur) :
    e.rest.length < cur.rest.length := by
  obtain ⟨w, ⟨hr, -⟩, hw⟩ := reads_of_mem_ends p he
  have := List.length_pos_iff.mpr (hw.ne_nil hp)
  rw [hr, List.length_append]
  omega

theorem filter_map_extend (l : List Cursor) :
    (l.map (·.extend s)).filter (·.leaves (s.length + k)) =
      (l.filter (·.leaves k)).map (·.extend s) := by
  rw [List.filter_map]
  exact congrArg _ (List.filter_congr fun e _ => Cursor.leaves_extend)

/-- In the longer text a repetition may go on, but then it reaches into what was added. -/
theorem exists_reads_extend (ok : Char → Bool) (rest : List Char) : ∀ taken last caps, ∃ more,
    reads ok taken last (rest ++ s) (caps.map (·.extend s)) =
        (reads ok taken last rest caps).map (·.extend s) ++ more ∧
      ∀ e ∈ more, e.rest.length < s.length := by
  induction rest with
  | nil =>
    intro taken last caps
    cases s with
    | nil => exact ⟨[], rfl, by simp⟩
    | cons c s =>
      refine ⟨if ok c then reads ok (taken + 1) (some c) s (caps.map (·.extend (c :: s))) else [], rfl,
        fun e he => ?_⟩
      split at he
      · obtain ⟨w, ⟨hr, -⟩, -⟩ := reaches_of_mem_reads s he
        have hl := congrArg List.length hr
        simp only [List.length_append] at hl
        simp only [List.length_cons]
        omega
      · simp at he
  | cons c rest ih =>
    intro taken last caps
    obtain ⟨more, hm, hlt⟩ := ih (taken + 1) (some c) caps
    rw [List.cons_append, reads, reads, hm]
    by_cases hc : ok c
    · exact ⟨more, by simp [hc, Cursor.extend], hlt⟩
    · exact ⟨[], by simp [hc, Cursor.extend], by simp⟩

theorem filter_reads_extend (ok : Char → Bool) (taken : Nat) (last : Option Char)
    (rest : List Char) (caps : List Capture) :
    (reads ok taken last (rest ++ s) (caps.map (·.extend s))).filter (·.leaves (s.length + k)) =
      ((reads ok taken last rest caps).filter (·.leaves k)).map (·.extend s) := by
  obtain ⟨more, hm, hlt⟩ := exists_reads_extend (s := s) ok rest taken last caps
  have hn : more.filter (·.leaves (s.length + k)) = [] := by
    refine List.filter_eq_nil_iff.mpr fun e he => ?_
    have := hlt e he
    simp only [Cursor.leaves, decide_eq_true_eq]
    omega
  rw [hm, List.filter_append, hn, List.append_nil, filter_map_extend]

/-- Places from which only places outside a filter are reached can be left out first. -/
theorem filter_flatMap {f : Cursor → List Cursor} {P Q : Cursor → Bool} (l : List Cursor)
    (h : ∀ mid, Q mid = false → (f mid).filter P = []) :
    (l.flatMap f).filter P = (l.filter Q).flatMap fun mid => (f mid).filter P := by
  induction l with
  | nil => rfl
  | cons mid l ih =>
    rw [List.flatMap_cons, List.filter_append, ih, List.filter_cons]
    cases hq : Q mid with
    | true => rw [if_pos rfl, List.flatMap_cons]
    | false =>
      rw [h mid hq]
      rfl

/-- How much the first half of a sequence has to leave so that the whole can leave `k` characters:
one more than these if the first half looks ahead, since the second half then reads a character. -/
theorem exists_leaves_between (hk : 0 < k ∨ (seq p q).selfContained = true) :
    ∃ k', (0 < k' ∨ p.selfContained = true) ∧ (0 < k ∨ q.selfContained = true) ∧
      ∀ n mid, Cursor.leaves (n + k') mid = false → (q.ends mid).filter (·.leaves (n + k)) = [] := by
  have hle {n mid} (h : Cursor.leaves (n + k) mid = false) :
      (q.ends mid).filter (·.leaves (n + k)) = [] := by
    refine List.filter_eq_nil_iff.mpr fun e he => ?_
    have := length_rest_le he
    simp only [Cursor.leaves, decide_eq_false_iff_not, decide_eq_true_eq] at *
    omega
  have hlt (hq : q.takesSome = true) {n mid} (h : Cursor.leaves (n + (k + 1)) mid = false) :
      (q.ends mid).filter (·.leaves (n + k)) = [] := by
    refine List.filter_eq_nil_iff.mpr fun e he => ?_
    have := length_rest_lt hq he
    simp only [Cursor.leaves, decide_eq_false_iff_not, decide_eq_true_eq] at *
    omega
  rcases hk with hk | hs
  · exact ⟨k, .inl hk, .inl hk, fun _ _ => hle⟩
  · obtain ⟨hpq, hq⟩ := Bool.and_eq_true _ _ ▸ hs
    rcases Bool.or_eq_true _ _ ▸ hpq with hp | hq'
    · exact ⟨k, .inr hp, .inr hq, fun _ _ => hle⟩
    · exact ⟨k + 1, .inl (Nat.succ_pos k), .inr hq, fun _ _ => hlt hq'⟩

/-- An anchor that holds in both texts, wherever it leaves enough characters. -/
theorem filter_anchor_extend {b b' : Bool} (h : cur.leaves k = true → b = b') :
    (if b then [cur.extend s] else []).filter (·.leaves (s.length + k)) =
      ((if b' then [cur] else []).filter (·.leaves k)).map (·.extend s) := by
  cases hl : cur.leaves k with
  | true =>
    obtain rfl := h hl
    cases b with
    | true => exact filter_map_extend [cur]
    | false => rfl
  | false =>
    have hl' : (cur.extend s).leaves (s.length + k) = false := Cursor.leaves_extend.trans hl
    cases b <;> cases b' <;> simp [hl, hl']

theorem Cursor.exists_rest_of_leaves (hk : 0 < k) (h : cur.leaves k = true) :
    ∃ c rest, cur.rest = c :: rest := by
  refine List.exists_cons_of_length_pos ?_
  simp only [Cursor.leaves, decide_eq_true_eq] at h
  omega

/-- The readings in the longer text that leave what was added alone, and `k` characters before it,
are the readings in the shorter text that leave `k` characters, in the same order. A pattern that
looks at what stands behind its reading has to leave a character for that. -/
theorem filter_ends_extend (p : Pattern) : ∀ {k}, 0 < k ∨ p.selfContained = true → ∀ cur,
    (p.ends (cur.extend s)).filter (·.leaves (s.length + k)) =
      ((p.ends cur).filter (·.leaves k)).map (·.extend s) := by
  induction p with
  | empty => intro k _ cur; exact filter_map_extend [cur]
  | char ok =>
    rintro k - ⟨taken, last, _ | ⟨c, rest⟩, caps⟩
    · -- the character would be one that was added
      refine List.filter_eq_nil_iff.mpr fun e he => ?_
      have := length_rest_lt (p := char ok) rfl he
      simp only [Cursor.extend, List.nil_append] at this
      simp only [Cursor.leaves, decide_eq_true_eq]
      omega
    · have h : (⟨taken + 1, some c, rest, caps⟩ : Cursor).leaves k = true → ok c = ok c := fun _ => rfl
      exact filter_anchor_extend h
  | many ok =>
    intro k _ cur
    rw [ends, ends, List.filter_reverse, List.filter_reverse, List.map_reverse]
    exact congrArg _ (filter_reads_extend ok _ _ _ _)
  | few ok => intro k _ cur; exact filter_reads_extend ok _ _ _ _
  | seq p q ihp ihq =>
    intro k hk cur
    obtain ⟨k', hp, hq, hn⟩ := exists_leaves_between hk
    have hn₀ (mid : Cursor) (h : mid.leaves k' = false) : (q.ends mid).filter (·.leaves k) = [] := by
      simpa using hn 0 mid (by simpa using h)
    rw [ends, ends, filter_flatMap _ (hn s.length), ihp hp cur, List.flatMap_map,
      filter_flatMap _ hn₀, List.map_flatMap]
    exact List.flatMap_congr fun mid _ => ihq hq mid
  | either p q ihp ihq =>
    intro k hk cur
    have h := hk.imp_right fun h => Bool.and_eq_true _ _ ▸ h
    rw [ends, ends, List.filter_append, List.filter_append, List.map_append,
      ihp (h.imp_right And.left) cur, ihq (h.imp_right And.right) cur]
  | group n p ih =>
    intro k hk cur
    have h := congrArg (List.map (·.close (cur.extend s) n)) (ih hk cur)
    rw [ends, ends, List.filter_map, List.filter_map, List.map_map]
    rw [List.map_map] at h
    exact h
  | lineStart => intro k _ cur; exact filter_anchor_extend fun _ => rfl
  | textEnd =>
    intro k hk cur
    refine filter_anchor_extend fun hl => ?_
    obtain ⟨c, rest, hr⟩ := Cursor.exists_rest_of_leaves (hk.resolve_right Bool.false_ne_true) hl
    simp [Cursor.extend, hr]
  | wordEdge =>
    intro k hk cur
    refine filter_anchor_extend fun hl => ?_
    obtain ⟨c, rest, hr⟩ := Cursor.exists_rest_of_leaves (hk.resolve_right Bool.false_ne_true) hl
    simp [Cursor.extend, Cursor.atWordEdge, hr]

/-! ## Reading at a place -/

theorem readAt_eq_head? : p.readAt last s = (p.ends ⟨0, last, s, []⟩).head?.map fun e =>
    ⟨s.take e.taken, e.captures, e.rest⟩ := by
  rw [readAt, run_eq_findSome?]
  cases p.ends ⟨0, last, s, []⟩ <;> rfl

theorem taken_le_length (he : e ∈ p.ends ⟨0, last, u, []⟩) : e.taken ≤ u.length := by
  obtain ⟨w, ⟨hr, ht, -⟩, -⟩ := reads_of_mem_ends p he
  have hlen := congrArg List.length hr
  simp only [List.length_append] at hlen ht
  omega

theorem head?_ends_of_append (hp : p.selfContained = true)
    (he : (p.ends ⟨0, last, u ++ s, []⟩).head? = some e) (hleaves : e.leaves s.length = true) :
    ∃ e', (p.ends ⟨0, last, u, []⟩).head? = some e' ∧ e'.extend s = e := by
  obtain ⟨l, hl⟩ := List.head?_eq_some_iff.mp he
  have hall : (p.ends ⟨0, last, u, []⟩).filter (·.leaves 0) = p.ends ⟨0, last, u, []⟩ :=
    List.filter_eq_self.mpr fun e _ => decide_eq_true (Nat.zero_le _)
  have hends : (p.ends ⟨0, last, u ++ s, []⟩).filter (·.leaves s.length) =
      (p.ends ⟨0, last, u, []⟩).map (·.extend s) := by
    rw [← hall]
    exact filter_ends_extend (s := s) (k := 0) p (.inr hp) ⟨0, last, u, []⟩
  rw [hl, List.filter_cons_of_pos hleaves] at hends
  have hhead := congrArg List.head? hends
  rw [List.head?_cons, List.head?_map] at hhead
  exact Option.map_eq_some_iff.mp hhead.symm

/-- A reading that leaves alone what was added is the one without it. -/
theorem readAt_of_append (hp : p.selfContained = true) {h : Hit}
    (hr : p.readAt last (u ++ s) = some h) (hle : h.text.length ≤ u.length) :
    ∃ h', p.readAt last u = some h' ∧ h'.extend s = h := by
  obtain ⟨hs, -⟩ := reads_of_readAt hr
  rw [readAt_eq_head?] at hr
  obtain ⟨e, he, rfl⟩ := Option.map_eq_some_iff.mp hr
  have hleaves : e.leaves s.length = true := by
    have hlen := congrArg List.length hs
    simp only [List.length_append] at hlen hle
    simp only [Cursor.leaves, decide_eq_true_eq]
    omega
  obtain ⟨e', he', rfl⟩ := head?_ends_of_append hp he hleaves
  have htaken := taken_le_length (List.mem_of_mem_head? he')
  refine ⟨⟨u.take e'.taken, e'.captures, e'.rest⟩, by rw [readAt_eq_head?, he']; rfl, ?_⟩
  simp [Hit.extend, Cursor.extend, List.take_append_of_le_length htaken]

theorem readAt_eq_none_of_append (hp : p.selfContained = true)
    (hr : p.readAt last (u ++ s) = none) : p.readAt last u = none := by
  rw [readAt_eq_none] at hr ⊢
  rintro w rest rfl hw
  exact hr w (rest ++ s) (List.append_assoc ..) (hw.of_selfContained hp)

theorem groupText_extend {h : Hit} (hr : p.readAt last u = some h) (s : List Char) (n : Nat) :
    (h.extend s).groupText n = h.groupText n := by
  obtain ⟨e, he, -, -, hc⟩ := readAt_eq_some hr
  have hle : ∀ c ∈ h.captures, c.length ≤ c.start.length := fun c hm =>
    (length_le_of_mem_captures p (List.mem_of_mem_head? he) (hc ▸ hm)).resolve_left List.not_mem_nil
  unfold Hit.groupText Hit.group? Hit.extend
  split
  · rfl
  · have hn : ((·.number == n) ∘ (·.extend s) : Capture → Bool) = (·.number == n) := rfl
    rw [List.find?_map, hn]
    cases hf : h.captures.find? (·.number == n) with
    | none => rfl
    | some c =>
      have := hle c (List.mem_of_find?_eq_some hf)
      simp [Capture.extend, List.take_append_of_le_length this]

/-! ## Cutting in two parts -/

/-- The pieces of the text come apart where the second part begins: none that begins in `u`, behind
`last`, runs on into `s`. -/
def ComesApart (p : Pattern) (last : Option Char) (u s : List Char) : Prop :=
  ∃ ps qs, p.Cuts last (u ++ s) (ps ++ qs) ∧ ps.flatMap Piece.text = u

/-- The piece in the text with `s` behind it. -/
def Piece.extend (s : List Char) : Piece → Piece
  | .gap c => .gap c
  | .hit h => .hit (h.extend s)

theorem Cuts.of_gap {c : Char} {ps : List Piece} (hc : p.Cuts last (c :: s) (.gap c :: ps)) :
    p.readAt last (c :: s) = none ∧ p.Cuts (some c) s ps := by
  cases hc with
  | gap hr hc => exact ⟨hr, hc⟩

theorem Cuts.of_hit {h : Hit} {ps : List Piece} (hc : p.Cuts last s (.hit h :: ps)) :
    p.readAt last s = some h ∧ p.Cuts (h.text.getLast?.or last) h.after ps := by
  cases hc with
  | hit hr hc => exact ⟨hr, hc⟩

/-- The pieces of a text that comes apart are those of its parts. -/
theorem Cuts.split (hp : p.selfContained = true) {ps qs : List Piece}
    (hc : p.Cuts last (u ++ s) (ps ++ qs)) (hu : ps.flatMap Piece.text = u) :
    ∃ ps', p.Cuts last u ps' ∧ ps = ps'.map (Piece.extend s) ∧ p.Cuts (u.getLast?.or last) s qs := by
  induction ps generalizing last u with
  | nil =>
    subst hu
    exact ⟨[], .done last, rfl, hc⟩
  | cons piece ps ih =>
    subst hu
    cases piece with
    | gap c =>
      obtain ⟨hr, hc⟩ := Cuts.of_gap hc
      obtain ⟨ps', hu, rfl, hs⟩ := ih hc rfl
      refine ⟨.gap c :: ps', .gap (readAt_eq_none_of_append hp hr) hu, rfl, ?_⟩
      rwa [List.flatMap_cons, getLast?_append_or]
    | hit h =>
      obtain ⟨hr, hc⟩ := Cuts.of_hit hc
      rw [List.flatMap_cons, List.append_assoc] at hr
      obtain ⟨hs, -⟩ := reads_of_readAt hr
      have hafter : h.after = ps.flatMap Piece.text ++ s := (List.append_cancel_left hs).symm
      rw [hafter] at hc
      obtain ⟨ps', hu, rfl, hs⟩ := ih hc rfl
      rw [← List.append_assoc] at hr
      obtain ⟨h', hr', rfl⟩ := readAt_of_append hp hr (by simp [Piece.text])
      have hafter' : h'.after = (ps'.map (Piece.extend s)).flatMap Piece.text :=
        List.append_cancel_right hafter
      refine ⟨.hit h' :: ps', .hit hr' (hafter' ▸ hu), rfl, ?_⟩
      rwa [List.flatMap_cons, getLast?_append_or]

/-- A text comes apart where no reading at all runs over the seam. -/
theorem comesApart_of_reads (ht : p.takesSome = true)
    (hn : ∀ a b, u = a ++ b → b ≠ [] → ∀ w rest, b ++ s = w ++ rest →
      p.Reads (a.getLast?.or last) w rest → w.length ≤ b.length) : p.ComesApart last u s := by
  have hcuts := cuts_cutFrom ht (u ++ s) last false
  generalize p.cutFrom 0 false last (u ++ s) = rs at hcuts
  generalize hus : u ++ s = t at hcuts
  induction hcuts generalizing u with
  | done last =>
    obtain ⟨rfl, rfl⟩ := List.append_eq_nil_iff.mp hus
    exact ⟨[], [], .done last, rfl⟩
  | @gap last c rest rs hr hc ih =>
    cases u with
    | nil =>
      obtain rfl : s = c :: rest := hus
      exact ⟨[], _, .gap hr hc, rfl⟩
    | cons d u =>
      obtain ⟨hd, hrest⟩ := List.cons.inj hus
      subst hd hrest
      obtain ⟨ps, qs, hps, rfl⟩ := ih (fun a b hab hb w rest hw hread => by
        refine hn (d :: a) b (congrArg _ hab) hb w rest hw ?_
        rwa [getLast?_cons_or]) rfl
      exact ⟨.gap d :: ps, qs, .gap hr hps, rfl⟩
  | @hit last t h rs hr hc ih =>
    subst hus
    obtain ⟨hs, hread⟩ := reads_of_readAt hr
    by_cases hne : u = []
    · subst hne
      exact ⟨[], _, .hit hr hc, rfl⟩
    · obtain ⟨v, rfl⟩ : h.text <+: u :=
        List.prefix_of_prefix_length_le ⟨h.after, hs.symm⟩ (List.prefix_append u s)
          (hn [] u rfl hne _ _ hs hread)
      have hafter : v ++ s = h.after := List.append_cancel_left (by rw [← List.append_assoc, hs])
      obtain ⟨ps, qs, hps, rfl⟩ := ih (fun a b hab hb w rest hw hread => by
        refine hn (h.text ++ a) b (by rw [hab, List.append_assoc]) hb w rest hw ?_
        rwa [getLast?_append_or]) hafter
      exact ⟨.hit h :: ps, qs, .hit hr (hafter ▸ hps), rfl⟩

/-- What is written for a reading depends on its text and on what its groups read alone. -/
def DependsOnText (f : Hit → List Char) : Prop :=
  ∀ h h' : Hit, h.text = h'.text → (∀ n, h.groupText n = h'.groupText n) → f h = f h'

theorem flatMap_write_extend {f : Hit → List Char} (hf : DependsOnText f) {ps : List Piece}
    (h : p.Cuts last u ps) (s : List Char) :
    (ps.map (Piece.extend s)).flatMap (Piece.write f) = ps.flatMap (Piece.write f) := by
  induction h with
  | done last => rfl
  | @gap last c u ps _ _ ih => exact congrArg (c :: ·) ih
  | @hit last u h ps hr _ ih =>
    have he : f (h.extend s) = f h := hf _ _ rfl (groupText_extend hr s)
    rw [List.map_cons, List.flatMap_cons, List.flatMap_cons, ih]
    exact congrArg (· ++ _) he

/-! ## Patterns that do not look back -/

/-- Every reading begins with a character, before any anchor. -/
def beginsWithChar : Pattern → Bool
  | char _ => true
  | seq p _ => beginsWithChar p
  | either p q => beginsWithChar p && beginsWithChar q
  | group _ p => beginsWithChar p
  | _ => false

theorem ends_congr_last (hp : p.beginsWithChar = true) {taken : Nat} {caps : List Capture}
    (last last' : Option Char) :
    p.ends ⟨taken, last, s, caps⟩ = p.ends ⟨taken, last', s, caps⟩ := by
  induction p with
  | char ok => cases s <;> rfl
  | seq p q ihp _ => rw [ends, ends, ihp hp]
  | either p q ihp ihq =>
    obtain ⟨hp, hq⟩ := Bool.and_eq_true _ _ ▸ hp
    rw [ends, ends, ihp hp, ihq hq]
  | group n p ih =>
    rw [ends, ends, ih hp]
    rfl
  | _ => exact absurd hp Bool.false_ne_true

theorem readAt_congr_last (hp : p.beginsWithChar = true) (last last' : Option Char) :
    p.readAt last s = p.readAt last' s := by
  rw [readAt, readAt, run_eq_findSome?, run_eq_findSome?, ends_congr_last hp last last']

theorem Cuts.congr_last (hp : p.beginsWithChar = true) (ht : p.takesSome = true) {ps : List Piece}
    (h : p.Cuts last s ps) (last' : Option Char) : p.Cuts last' s ps := by
  cases h with
  | done => exact .done last'
  | gap hr hc => exact .gap (readAt_congr_last hp last last' ▸ hr) hc
  | @hit _ _ h ps hr hc =>
    refine .hit (readAt_congr_last hp last last' ▸ hr) ?_
    obtain ⟨c, w, hw⟩ := List.exists_cons_of_ne_nil ((reads_of_readAt hr).2.ne_nil ht)
    rw [hw, getLast?_cons_or] at hc ⊢
    exact hc

/-! ## Rewriting in two parts -/

/-- The shape of a pattern that can be looked for part by part: it reads a character first, and what
it reads does not depend on what follows. -/
structure Sectioned (p : Pattern) : Prop where
  begins : p.beginsWithChar = true
  takes : p.takesSome = true
  contained : p.selfContained = true

/-- A text that comes apart is rewritten part by part. -/
theorem replace_append (hp : p.Sectioned) {f : Hit → List Char} (hf : DependsOnText f) {u s : String}
    (hu : p.ComesApart none u.toList s.toList) :
    p.replace f (u ++ s) = p.replace f u ++ p.replace f s := by
  obtain ⟨ps, qs, hc, htext⟩ := hu
  obtain ⟨ps', hps, rfl, hqs⟩ := hc.split hp.contained htext
  have hcs := hqs.congr_last hp.begins hp.takes none
  rw [← String.toList_inj, String.toList_append, toList_replace, toList_replace, toList_replace,
    String.toList_append, hc.eq_cut hp.takes, hps.eq_cut hp.takes, hcs.eq_cut hp.takes,
    List.flatMap_append, flatMap_write_extend hf hps]

/-- A reading at the beginning of a text is replaced, and the rest is rewritten by itself. -/
theorem replace_of_readAt (hp : p.Sectioned) (f : Hit → List Char) {h : Hit} {s : String}
    (hr : p.readAt none s.toList = some h) :
    (p.replace f s).toList = f h ++ (p.replace f (String.ofList h.after)).toList := by
  have hc : p.Cuts none s.toList (.hit h :: p.cut h.after) :=
    .hit hr ((cuts_cut hp.takes h.after).congr_last hp.begins hp.takes _)
  rw [toList_replace, toList_replace, hc.eq_cut hp.takes, String.toList_ofList, List.flatMap_cons]
  rfl

/-- A text in which no reading begins is passed over. -/
theorem replace_gaps_append (hp : p.Sectioned) (f : Hit → List Char) {w : List Char} {s : String}
    (hw : ∀ a b, w = a ++ b → b ≠ [] → p.readAt none (b ++ s.toList) = none) :
    p.replace f (String.ofList w ++ s) = String.ofList w ++ p.replace f s := by
  have hcs := (cuts_cut hp.takes s.toList).congr_last hp.begins hp.takes (w.getLast?.or none)
  have hn : ∀ a b, w = a ++ b → b ≠ [] → p.readAt (a.getLast?.or none) (b ++ s.toList) = none :=
    fun a b hab hb => readAt_congr_last hp.begins none _ ▸ hw a b hab hb
  have hc := (Cuts.gaps hn hcs).eq_cut hp.takes
  rw [← String.toList_inj, String.toList_append, toList_replace, toList_replace,
    String.toList_append, String.toList_ofList, hc, List.flatMap_append, flatMap_write_gaps]

end Workbench.Pattern
