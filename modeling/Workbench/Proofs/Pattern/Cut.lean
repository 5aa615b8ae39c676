import Workbench.Proofs.Pattern.Reading

/-!
# Cutting a text, step by step

`Pattern.Cuts p last s pieces` is the cut of a text as a relation: at each place either nothing is
read and one character is passed over, or the preferred reading is taken. It describes `Pattern.cut`
for every pattern that never reads nothing (`cuts_cut`, `Cuts.eq_cut`), so that a fact about all cuts
is proved by induction over it and a cut is found by building it up.

* `occursIn_iff`: a piece of a text is read exactly when the pattern can read it where it stands.
* `replace_of_not_occursIn`: a text without readings is left as it is.
-/

namespace Workbench.Pattern

variable {p : Pattern} {last : Option Char} {s w rest : List Char} {ps : List Piece}

/-- The text `s`, which follows the character `last`, is cut into the pieces. -/
inductive Cuts (p : Pattern) : Option Char → List Char → List Piece → Prop
  | done (last : Option Char) : Cuts p last [] []
  | gap {last : Option Char} {c : Char} {rest : List Char} {ps : List Piece} :
    p.readAt last (c :: rest) = none → Cuts p (some c) rest ps →
      Cuts p last (c :: rest) (.gap c :: ps)
  | hit {last : Option Char} {s : List Char} {h : Hit} {ps : List Piece} :
    p.readAt last s = some h → Cuts p (h.text.getLast?.or last) h.after ps →
      Cuts p last s (.hit h :: ps)

theorem getLast?_cons_or (c : Char) (w : List Char) (last : Option Char) :
    (c :: w).getLast?.or last = w.getLast?.or (some c) := by
  rw [List.getLast?_cons, Option.some_or, ← Option.or_some]

theorem getLast?_append_or (u v : List Char) (last : Option Char) :
    (u ++ v).getLast?.or last = v.getLast?.or (u.getLast?.or last) := by
  rw [List.getLast?_append, Option.or_assoc]

theorem cutFrom_append (p : Pattern) (w rest : List Char) :
    ∀ {last}, p.cutFrom w.length true last (w ++ rest) =
      p.cutFrom 0 true (w.getLast?.or last) rest := by
  induction w with
  | nil => intro last; rfl
  | cons c w ih =>
    intro last
    rw [List.cons_append, List.length_cons, cutFrom, ih, List.getLast?_cons]
    cases w.getLast? <;> rfl

theorem readAt_nil (hp : p.takesSome = true) : p.readAt last [] = none := by
  refine readAt_eq_none.mpr fun w rest h hr => hr.ne_nil hp ?_
  exact (List.append_eq_nil_iff.mp h.symm).1

theorem occursIn_empty (hp : p.takesSome = true) : p.occursIn "" = false := by
  have hc : p.cut "".toList = [] := by
    rw [cut, String.toList_empty, cutFrom, readAt_nil hp]
  rw [occursIn, first?, hits, hc]
  rfl

theorem cutFrom_of_readAt (hp : p.takesSome = true) {h : Hit} {behind : Bool}
    (hr : p.readAt last s = some h) :
    p.cutFrom 0 behind last s =
      .hit h :: p.cutFrom 0 true (h.text.getLast?.or last) h.after := by
  obtain ⟨hs, hread⟩ := reads_of_readAt hr
  obtain ⟨c, more, ht⟩ := List.exists_cons_of_ne_nil (hread.ne_nil hp)
  subst hs
  rw [ht, List.cons_append] at hr ⊢
  rw [cutFrom, hr]
  simp only [ht]
  rw [cutFrom_append, List.getLast?_cons]
  cases more.getLast? <;> rfl

theorem cuts_cutFrom (hp : p.takesSome = true) (s : List Char) :
    ∀ last behind, p.Cuts last s (p.cutFrom 0 behind last s) := by
  induction hn : s.length using Nat.strongRecOn generalizing s with
  | ind n ih =>
    intro last behind
    subst hn
    cases hr : p.readAt last s with
    | some h =>
      obtain ⟨hs, hread⟩ := reads_of_readAt hr
      have hlt : h.after.length < s.length := by
        have := List.length_pos_iff.mpr (hread.ne_nil hp)
        rw [hs, List.length_append]
        omega
      rw [cutFrom_of_readAt hp hr]
      exact .hit hr (ih _ hlt _ rfl _ _)
    | none =>
      cases s with
      | nil =>
        rw [cutFrom, hr]
        exact .done last
      | cons c rest =>
        rw [cutFrom, hr]
        exact .gap hr (ih _ (Nat.lt_succ_self _) rest rfl _ _)

/-- The pieces of a text are a cut of it. -/
theorem cuts_cut (hp : p.takesSome = true) (s : List Char) : p.Cuts none s (p.cut s) :=
  cuts_cutFrom hp s none false

theorem Cuts.eq_cutFrom (hp : p.takesSome = true) (h : p.Cuts last s ps) :
    ∀ behind, p.cutFrom 0 behind last s = ps := by
  induction h with
  | done last => intro behind; rw [cutFrom, readAt_nil hp]
  | gap hr _ ih => intro behind; rw [cutFrom, hr]; exact congrArg _ (ih _)
  | hit hr _ ih => intro behind; rw [cutFrom_of_readAt hp hr, ih]

/-- There is only one cut. -/
theorem Cuts.eq_cut (hp : p.takesSome = true) (h : p.Cuts none s ps) : p.cut s = ps :=
  h.eq_cutFrom hp false

/-- Where nothing is read at any place of `w`, its characters are passed over. -/
theorem Cuts.gaps
    (hw : ∀ a b, w = a ++ b → b ≠ [] → p.readAt (a.getLast?.or last) (b ++ rest) = none)
    (h : p.Cuts (w.getLast?.or last) rest ps) : p.Cuts last (w ++ rest) (w.map .gap ++ ps) := by
  induction w generalizing last with
  | nil => exact h
  | cons c w ih =>
    refine .gap (hw [] (c :: w) rfl (List.cons_ne_nil c w)) (ih (fun a b hab hb => ?_) ?_)
    · have := hw (c :: a) b (congrArg _ hab) hb
      rwa [getLast?_cons_or] at this
    · rwa [getLast?_cons_or] at h

/-- A reading in a cut was taken where it stands. -/
theorem Cuts.exists_readAt {h : Hit} (hc : p.Cuts last s ps) (hm : .hit h ∈ ps) :
    ∃ last s, p.readAt last s = some h := by
  induction hc with
  | done last => exact absurd hm List.not_mem_nil
  | gap _ _ ih =>
    rcases List.mem_cons.mp hm with he | hm
    · exact absurd he Piece.noConfusion
    · exact ih hm
  | @hit last s h' ps hr _ ih =>
    rcases List.mem_cons.mp hm with he | hm
    · obtain rfl := Piece.hit.inj he
      exact ⟨last, s, hr⟩
    · exact ih hm

/-- No reading in a cut is empty. -/
theorem text_ne_nil_of_cut_eq (hp : p.takesSome = true) {h : Hit} {qs : List Piece}
    (hcut : p.cut s = ps ++ .hit h :: qs) : h.text ≠ [] := by
  have hm : Piece.hit h ∈ p.cut s := by
    rw [hcut]
    exact List.mem_append_right ps List.mem_cons_self
  obtain ⟨last, t, hr⟩ := (cuts_cut hp s).exists_readAt hm
  exact (reads_of_readAt hr).2.ne_nil hp

theorem mem_hits {h : Hit} {s : String} : h ∈ p.hits s ↔ .hit h ∈ p.cut s.toList := by
  refine List.mem_filterMap.trans ⟨?_, fun hm => ⟨.hit h, hm, rfl⟩⟩
  rintro ⟨_ | h', hm, he⟩
  · exact absurd he.symm (Option.some_ne_none h)
  · exact Option.some.inj he ▸ hm

theorem reads_of_mem_hits (hp : p.takesSome = true) {h : Hit} {s : String} (hm : h ∈ p.hits s) :
    ∃ last rest, p.Reads last h.text rest := by
  obtain ⟨last, _, hr⟩ := (cuts_cut hp s.toList).exists_readAt (mem_hits.mp hm)
  exact ⟨last, h.after, (reads_of_readAt hr).2⟩

/-! ## Replacing and collecting -/

/-- What is written for a piece when readings are replaced. -/
def Piece.write (f : Hit → List Char) : Piece → List Char
  | .gap c => [c]
  | .hit h => f h

theorem toList_replace (p : Pattern) (f : Hit → List Char) (s : String) :
    (p.replace f s).toList = (p.cut s.toList).flatMap (Piece.write f) := by
  rw [replace, String.toList_ofList]
  rfl

theorem flatMap_write_gaps (f : Hit → List Char) (w : List Char) :
    (w.map Piece.gap).flatMap (Piece.write f) = w := by
  induction w with
  | nil => rfl
  | cons c w ih => exact congrArg (c :: ·) ih

theorem filterMap_hit?_gaps (w : List Char) : (w.map Piece.gap).filterMap Piece.hit? = [] := by
  induction w with
  | nil => rfl
  | cons c w ih => exact ih

/-! ## Occurrences -/

/-- A cut without readings passes over the whole text, and the pattern can read no piece of it. -/
theorem Cuts.no_hit_iff (hp : p.takesSome = true) (h : p.Cuts last s ps) :
    ps.filterMap Piece.hit? = [] ↔
      ∀ a w b, s = a ++ (w ++ b) → ¬ p.Reads (a.getLast?.or last) w b := by
  induction h with
  | done last =>
    refine iff_of_true rfl fun a w b hs hr => hr.ne_nil hp ?_
    exact (List.append_eq_nil_iff.mp (List.append_eq_nil_iff.mp hs.symm).2).1
  | @gap last c rest ps hr h ih =>
    refine ih.trans ⟨fun hn a w b hs hw => ?_, fun hn a w b hs hw => ?_⟩
    · cases a with
      | nil => exact readAt_eq_none.mp hr w b hs hw
      | cons d a =>
        obtain ⟨rfl, hs'⟩ := List.cons.inj hs
        refine hn a w b hs' ?_
        rwa [getLast?_cons_or] at hw
    · refine hn (c :: a) w b (congrArg _ hs) ?_
      rwa [getLast?_cons_or]
  | @hit last s h ps hr hc ih =>
    obtain ⟨hs, hread⟩ := reads_of_readAt hr
    exact iff_of_false (List.cons_ne_nil _ _) fun hn => hn [] h.text h.after hs hread

theorem occursIn_iff_hits {s : String} :
    p.occursIn s = true ↔ (p.cut s.toList).filterMap Piece.hit? ≠ [] := by
  rw [occursIn, first?, hits]
  cases (p.cut s.toList).filterMap Piece.hit? <;> simp

/-- A pattern occurs in a text exactly when it can read a piece of it where the piece stands. -/
theorem occursIn_iff (hp : p.takesSome = true) {s : String} :
    p.occursIn s = true ↔ ∃ a w b, s.toList = a ++ (w ++ b) ∧ p.Reads a.getLast? w b := by
  have h := (cuts_cut hp s.toList).no_hit_iff hp
  simp only [Option.or_none] at h
  rw [occursIn_iff_hits, ne_eq, h]
  push Not
  rfl

theorem replace_of_not_occursIn {s : String} (hn : p.occursIn s = false) (f : Hit → List Char) :
    p.replace f s = s := by
  have hl : (p.cut s.toList).filterMap Piece.hit? = [] := by
    by_contra h
    exact Bool.false_ne_true (hn.symm.trans (occursIn_iff_hits.mpr h))
  have hw : ∀ ps : List Piece, ps.filterMap Piece.hit? = [] →
      ps.flatMap (Piece.write f) = ps.flatMap Piece.text := by
    intro ps
    induction ps with
    | nil => intro _; rfl
    | cons piece ps ih =>
      cases piece with
      | gap c => exact fun h => congrArg (c :: ·) (ih h)
      | hit h' => exact fun h => absurd h (List.cons_ne_nil _ _)
  rw [← String.toList_inj, toList_replace, hw _ hl, flatMap_piece_cut]

end Workbench.Pattern
