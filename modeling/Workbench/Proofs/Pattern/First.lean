import Workbench.Proofs.Pattern.Cut

/-!
# The first reading in a text

The first reading stands at the first place at which anything is read (`first?_of_readAt`). A reluctant
repetition ends at the first place from which the rest of the pattern can be read
(`Prefers.fewest`). A pattern that reads up to the end of the text reads at most one piece, whichever
way it begins, and leaving this piece out keeps the text before it (`remove_end`). Between a text in
which no reading begins and one in which none ends, a text is cut by itself (`exists_cut_between`).
-/

namespace Workbench.Pattern

variable {p q : Pattern} {last : Option Char} {s t u v rest : List Char} {text : String} {h : Hit}
  {ps : List Piece}

/-- Nothing is read at any place of `u`, which follows the character `last` and is followed by `s`. -/
def Passes (p : Pattern) (last : Option Char) (u s : List Char) : Prop :=
  ∀ a b, u = a ++ b → b ≠ [] → p.readAt (a.getLast?.or last) (b ++ s) = none

theorem Passes.of_cons {c : Char} (h : p.Passes last (c :: u) s) : p.Passes (some c) u s := by
  intro a b hab hb
  have := h (c :: a) b (congrArg _ hab) hb
  rwa [getLast?_cons_or] at this

theorem first?_of_readAt (hp : p.takesSome = true) (hs : text.toList = u ++ s)
    (hu : p.Passes none u s) (hr : p.readAt u.getLast? s = some h) : p.first? text = some h := by
  have hcuts : p.Cuts (u.getLast?.or none) s (.hit h :: p.cutFrom 0 true (h.text.getLast?.or
      u.getLast?) h.after) := by
    rw [Option.or_none]
    exact .hit hr (cuts_cutFrom hp h.after _ _)
  have hcut := (Cuts.gaps hu hcuts).eq_cut hp
  rw [first?, hits, hs, hcut, List.filterMap_append, filterMap_hit?_gaps]
  rfl

theorem first?_eq_none (hp : p.takesSome = true) : p.first? text = none ↔
    ∀ a w b, text.toList = a ++ (w ++ b) → ¬ p.Reads a.getLast? w b := by
  rw [← Option.not_isSome_iff_eq_none, ← occursIn, occursIn_iff hp]
  push Not
  rfl

/-! ## Where readings begin -/

/-- The condition holds at no place of `w`, which is followed by `s`. -/
def Nowhere (here : List Char → Bool) (w s : List Char) : Prop :=
  ∀ a b, w = a ++ b → b ≠ [] → here (b ++ s) = false

/-- The condition holds at each place where a reading begins. -/
def BeginsWhere (p : Pattern) (here : List Char → Bool) : Prop :=
  ∀ {last w rest}, p.Reads last w rest → here (w ++ rest) = true

section Nowhere

variable {here : List Char → Bool} {c : Char}

theorem BeginsWhere.readAt_eq_none (hp : p.BeginsWhere here) (hs : here s = false) :
    p.readAt last s = none := by
  refine Pattern.readAt_eq_none.mpr ?_
  rintro w rest rfl hr
  exact Bool.false_ne_true (hs.symm.trans (hp hr))

theorem Nowhere.readAt_eq_none (hp : p.BeginsWhere here) (hw : Nowhere here u s) {a b : List Char}
    (hab : u = a ++ b) (hb : b ≠ []) : p.readAt last (b ++ s) = none :=
  hp.readAt_eq_none (hw a b hab hb)

theorem Nowhere.nil (here : List Char → Bool) (s : List Char) : Nowhere here [] s := fun _ _ hab hb =>
  absurd (List.append_eq_nil_iff.mp hab.symm).2 hb

theorem Nowhere.cons (hc : here (c :: (u ++ s)) = false) (hu : Nowhere here u s) :
    Nowhere here (c :: u) s := by
  intro a b hab hb
  cases a with
  | nil =>
    obtain rfl : c :: u = b := hab
    exact hc
  | cons d a => exact hu a b (List.cons.inj hab).2 hb

theorem Nowhere.append (hu : Nowhere here u (v ++ s)) (hv : Nowhere here v s) :
    Nowhere here (u ++ v) s := by
  induction u with
  | nil => exact hv
  | cons c u ih =>
    refine .cons ?_ (ih fun a b hab hb => hu (c :: a) b (congrArg _ hab) hb)
    rw [List.append_eq, List.append_assoc]
    exact hu [] (c :: u) rfl (List.cons_ne_nil c u)

/-- It is enough that no character of the text can begin a place. -/
theorem Nowhere.of_forall (hu : ∀ c ∈ u, ∀ s, here (c :: s) = false) : Nowhere here u s := by
  induction u with
  | nil => exact .nil here s
  | cons c u ih =>
    rw [List.forall_mem_cons] at hu
    exact .cons (hu.1 _) (ih hu.2)

end Nowhere

/-! ## Reluctant repetition -/

theorem head?_flatMap_reads {ok : Char → Bool} {f : Cursor → List Cursor} {e : Cursor}
    {caps : List Capture} (hu : ∀ c ∈ u, ok c = true) : ∀ {taken last},
    (∀ a b, u = a ++ b → b ≠ [] →
      f ⟨taken + a.length, a.getLast?.or last, b ++ s, caps⟩ = []) →
    (f ⟨taken + u.length, u.getLast?.or last, s, caps⟩).head? = some e →
    ((reads ok taken last (u ++ s) caps).flatMap f).head? = some e := by
  induction u with
  | nil =>
    intro taken last _ he
    have hfirst : ∃ l, reads ok taken last s caps = ⟨taken, last, s, caps⟩ :: l := by
      cases s with
      | nil => exact ⟨[], rfl⟩
      | cons c s => exact ⟨_, rfl⟩
    obtain ⟨l, hl⟩ := hfirst
    have he : (f ⟨taken, last, s, caps⟩).head? = some e := he
    rw [List.nil_append, hl, List.flatMap_cons, List.head?_append, he, Option.some_or]
  | cons c u ih =>
    intro taken last hn he
    have hhere : f ⟨taken, last, c :: u ++ s, caps⟩ = [] := hn [] (c :: u) rfl (List.cons_ne_nil c u)
    have hlength (a : List Char) : taken + 1 + a.length = taken + (c :: a).length := by
      rw [List.length_cons]
      omega
    rw [List.cons_append, reads, if_pos (hu c List.mem_cons_self), List.flatMap_cons,
      ← List.cons_append, hhere, List.nil_append]
    refine ih (fun d hd => hu d (List.mem_cons_of_mem c hd)) (fun a b hab hb => ?_) ?_
    · rw [hlength, ← getLast?_cons_or]
      exact hn (c :: a) b (congrArg _ hab) hb
    · rwa [hlength, ← getLast?_cons_or]

theorem ends_eq_nil {cur : Cursor}
    (h : ∀ w rest, cur.rest = w ++ rest → ¬ p.Reads cur.last w rest) : p.ends cur = [] := by
  refine List.eq_nil_iff_forall_not_mem.mpr fun e he => ?_
  obtain ⟨w, hw, hread⟩ := reads_of_mem_ends p he
  exact h w e.rest hw.1 hread

/-- A reluctant repetition takes the fewest characters behind which the rest is read. -/
theorem Prefers.fewestBefore {ok : Char → Bool} {caps : List Capture} (hu : ∀ c ∈ u, ok c = true)
    (hn : q.Passes last u (v ++ rest)) (hq : q.Prefers (u.getLast?.or last) v rest caps) :
    Prefers (.seq (.few ok) q) last (u ++ v) rest caps := by
  rintro ⟨taken, last, _, cs⟩ rfl rfl
  rw [ends, ends, List.append_assoc]
  refine head?_flatMap_reads hu (fun a b hab hb => ?_) ?_
  · exact ends_eq_nil (readAt_eq_none.mp (hn a b hab hb))
  · rw [hq _ rfl rfl]
    simp [Nat.add_assoc, Option.or_assoc]

/-- A reluctant repetition in a group takes the fewest characters behind which the rest is read. -/
theorem Prefers.fewest {ok : Char → Bool} {n : Nat} {caps : List Capture}
    (hu : ∀ c ∈ u, ok c = true)
    (hn : ∀ a b, u = a ++ b → b ≠ [] → ∀ w r, b ++ (v ++ rest) = w ++ r →
      ¬ q.Reads (a.getLast?.or last) w r)
    (hq : q.Prefers (u.getLast?.or last) v rest caps) :
    Prefers (.seq (.group n (.few ok)) q) last (u ++ v) rest
      (caps ++ [⟨n, u ++ (v ++ rest), u.length⟩]) := by
  rintro ⟨taken, last, _, cs⟩ rfl rfl
  rw [ends, ends, ends, List.append_assoc, List.flatMap_map]
  refine head?_flatMap_reads hu (fun a b hab hb => ends_eq_nil (hn a b hab hb)) ?_
  rw [hq _ rfl rfl]
  simp [Cursor.close, Nat.add_assoc, Option.or_assoc]

/-! ## Patterns that read up to the end -/

theorem toList_remove (p : Pattern) (s : String) :
    (p.remove s).toList = (p.cut s.toList).flatMap (Piece.write fun _ => []) :=
  toList_replace p _ s

/-- Behind a piece that takes the rest of the text no other piece is left. -/
theorem flatMap_write_cutFrom_length (p : Pattern) (s : List Char) (last : Option Char) :
    (p.cutFrom s.length true last s).flatMap (Piece.write fun _ => []) = [] := by
  have hcut : p.cutFrom s.length true last (s ++ []) = _ := cutFrom_append p s []
  rw [List.append_nil] at hcut
  rw [hcut, cutFrom]
  split <;> rfl

/-- The pieces of a text that begins to be read to its end at `v` are `u` and what is left out. -/
theorem flatMap_write_cutFrom_end (hend : ∀ {last w rest}, p.Reads last w rest → rest = [])
    (hv : ∃ h, p.readAt (u.getLast?.or last) v = some h) (hu : p.Passes last u v) :
    (p.cutFrom 0 false last (u ++ v)).flatMap (Piece.write fun _ => []) = u := by
  induction u generalizing last with
  | nil =>
    obtain ⟨h, hr⟩ := hv
    have hr : p.readAt last v = some h := hr
    obtain ⟨hs, hread⟩ := reads_of_readAt hr
    rw [hend hread, List.append_nil] at hs
    rw [List.nil_append]
    cases v with
    | nil =>
      rw [cutFrom, hr]
      rfl
    | cons c v =>
      rw [cutFrom, hr]
      simp only [← hs]
      exact flatMap_write_cutFrom_length p v (some c)
  | cons c u ih =>
    have hhere : p.readAt last (c :: u ++ v) = none := hu [] (c :: u) rfl (List.cons_ne_nil c u)
    rw [List.cons_append] at hhere ⊢
    rw [getLast?_cons_or] at hv
    rw [cutFrom, hhere, List.flatMap_cons, ih hv hu.of_cons]
    rfl

/-- Leaving out what is read up to the end of the text keeps the text before it. -/
theorem remove_end (hend : ∀ {last w rest}, p.Reads last w rest → rest = [])
    (hu : p.Passes none u v) (hv : p.Reads u.getLast? v []) :
    (p.remove (String.ofList (u ++ v))).toList = u := by
  have hsome : ∃ h, p.readAt (u.getLast?.or none) v = some h := by
    rw [← Option.isSome_iff_exists, ← Option.ne_none_iff_isSome, Ne, Option.or_none, readAt_eq_none]
    exact fun h => h v [] (List.append_nil v).symm hv
  rw [toList_remove, String.toList_ofList]
  exact flatMap_write_cutFrom_end hend hsome hu

/-! ## A text between two others -/

/-- No reading ends with a character of `t`. -/
def EndsOutside (p : Pattern) (t : List Char) : Prop :=
  ∀ {last w rest c}, p.Reads last w rest → w.getLast? = some c → c ∉ t

theorem EndsOutside.of_append (h : p.EndsOutside (u ++ t)) : p.EndsOutside t := fun hr hc hm =>
  h hr hc (List.mem_append_right u hm)

theorem EndsOutside.readAt (hp : p.takesSome = true) (ht : p.EndsOutside t) :
    p.readAt last t = none := by
  refine readAt_eq_none.mpr fun w rest hs hr => ?_
  have hlast := List.getLast?_eq_some_getLast (hr.ne_nil hp)
  exact ht hr hlast (hs ▸ List.mem_append_left rest (List.getLast_mem _))

theorem Cuts.eq_gaps (hp : p.takesSome = true) (ht : p.EndsOutside t) (h : p.Cuts last t ps) :
    ps = t.map .gap := by
  induction h with
  | done last => rfl
  | @gap last c rest ps _ _ ih => exact congrArg _ (ih (ht.of_append (u := [c])))
  | hit hr => exact absurd hr (by simp [ht.readAt hp])

/-- Before a text in which no reading ends the pieces are those of the text before it. -/
theorem Cuts.exists_before (hp : p.takesSome = true) (ht : p.EndsOutside t)
    (h : p.Cuts last (v ++ t) ps) :
    ∃ qs, ps = qs ++ t.map .gap ∧ qs.flatMap Piece.text = v := by
  generalize hs : v ++ t = s at h
  induction h generalizing v with
  | done last =>
    obtain ⟨rfl, rfl⟩ := List.append_eq_nil_iff.mp hs
    exact ⟨[], rfl, rfl⟩
  | @gap last c rest ps hr hcuts ih =>
    cases v with
    | nil =>
      subst hs
      exact ⟨[], (Cuts.gap hr hcuts).eq_gaps hp ht, rfl⟩
    | cons d v =>
      obtain ⟨qs, rfl, hqs⟩ := ih (List.cons.inj hs).2
      obtain rfl := (List.cons.inj hs).1
      exact ⟨.gap d :: qs, rfl, congrArg (d :: ·) hqs⟩
  | @hit last s h ps hr hcuts ih =>
    obtain ⟨hs', hread⟩ := reads_of_readAt hr
    obtain ⟨z, rfl, hz⟩ : ∃ z, v = h.text ++ z ∧ h.after = z ++ t := by
      rcases List.append_eq_append_iff.mp (hs.trans hs') with ⟨z, hz, rfl⟩ | hz
      · rcases eq_or_ne z [] with rfl | hne
        · exact ⟨[], by simpa using hz.symm, rfl⟩
        · have hlast : h.text.getLast? = some (z.getLast hne) := by
            rw [hz, List.getLast?_append_of_ne_nil _ hne, List.getLast?_eq_some_getLast hne]
          exact absurd (List.mem_append_left h.after (List.getLast_mem hne)) (ht hread hlast)
      · exact hz
    obtain ⟨qs, rfl, hqs⟩ := ih hz.symm
    exact ⟨.hit h :: qs, rfl, congrArg (h.text ++ ·) hqs⟩

/-- The text between is cut by itself. -/
theorem exists_cut_between (hp : p.takesSome = true) (hu : p.Passes none u (v ++ t))
    (ht : p.EndsOutside t) :
    ∃ ps, p.cut (u ++ (v ++ t)) = u.map .gap ++ (ps ++ t.map .gap) ∧ ps.flatMap Piece.text = v := by
  have hcuts := cuts_cutFrom hp (v ++ t) (u.getLast?.or none) false
  obtain ⟨ps, hps, htext⟩ := hcuts.exists_before hp ht
  rw [hps] at hcuts
  exact ⟨ps, (Cuts.gaps hu hcuts).eq_cut hp, htext⟩

theorem toList_replace_between (f : Hit → List Char)
    (hc : p.cut text.toList = u.map .gap ++ (ps ++ t.map .gap)) :
    (p.replace f text).toList = u ++ (ps.flatMap (Piece.write f) ++ t) := by
  rw [toList_replace, hc, List.flatMap_append, List.flatMap_append, flatMap_write_gaps,
    flatMap_write_gaps]

/-- A text behind which no reading ends is replaced by itself, and not by nothing. -/
theorem exists_replace_append (hp : p.takesSome = true) (ht : p.EndsOutside t) {f : Hit → List Char}
    (hf : ∀ {last s h}, p.readAt last s = some h → f h ≠ []) (hs : text.toList = v ++ t) (hv : v ≠ []) :
    ∃ w, w ≠ [] ∧ (p.replace f text).toList = w ++ t := by
  have hpass : p.Passes none [] (v ++ t) := fun a b hab hb =>
    absurd (List.append_eq_nil_iff.mp hab.symm).2 hb
  obtain ⟨ps, hcut, rfl⟩ := exists_cut_between hp hpass ht
  rw [List.nil_append, ← hs] at hcut
  refine ⟨_, fun hw => ?_, toList_replace_between f hcut⟩
  cases ps with
  | nil => exact hv rfl
  | cons x ps =>
    have hx : x.write f = [] := (List.append_eq_nil_iff.mp hw).1
    cases x with
    | gap c => cases hx
    | hit h =>
      obtain ⟨last, s, hr⟩ := (cuts_cut hp text.toList).exists_readAt (h := h) (by simp [hcut])
      exact hf hr hx

theorem hits_between (hc : p.cut text.toList = u.map .gap ++ (ps ++ t.map .gap)) :
    p.hits text = ps.filterMap Piece.hit? := by
  rw [hits, hc, List.filterMap_append, List.filterMap_append, filterMap_hit?_gaps, filterMap_hit?_gaps,
    List.nil_append, List.append_nil]

end Workbench.Pattern
