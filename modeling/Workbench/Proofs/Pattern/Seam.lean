import Workbench.Pattern.Template
import Workbench.Proofs.Pattern.Cut

/-!
# Where rules have cut a text

When rules are applied one after the other, a later rule works on characters that an earlier rule
has brought together. Each character is followed through the rules with a mark that says whether it
still stands where it stood in the first text: no rule wrote it, and no rule took anything away or
wrote anything directly before it. The other characters are at a *seam*.

* `occursIn_foldl_apply_iff`: after the rules, each of them can read a piece of the text exactly
  when it can read one across a seam. What stands together in the first text has been taken out.
* `foldl_apply_eq_self_iff`: applying rules that make texts shorter changes nothing exactly when
  none of them can read a piece of the text.
-/

namespace Workbench

open Pattern

/-- A character of a rewritten text. It is in place if it stands behind the same character as in the
first text, and no rule wrote or took away anything between the two. -/
structure Placed where
  char : Char
  inPlace : Bool

namespace Placed

variable {p : Pattern} {f : Hit → List Char} {last : Option Char} {b : Bool}
variable {t u v : List Placed} {w : List Char}

/-- A text before any rule was applied. -/
def original (s : List Char) : List Placed := s.map (⟨·, true⟩)

/-- The text without the marks. -/
def chars (t : List Placed) : List Char := t.map char

/-- The text that is written for the pieces of `t`. Characters of readings are not in place, nor is
the first character behind a reading; `b` says that no reading stands directly before. -/
def mark (f : Hit → List Char) : Bool → List Piece → List Placed → List Placed
  | _, [], _ => []
  | b, .gap c :: ps, t => ⟨c, b && t.head?.any inPlace⟩ :: mark f true ps t.tail
  | _, .hit h :: ps, t => (f h).map (⟨·, false⟩) ++ mark f false ps (t.drop h.text.length)

/-- The text `w` stands together, behind `last`, with all its characters in place. -/
def Stands (t : List Placed) (last : Option Char) (w : List Char) : Prop :=
  ∃ a v b, t = a ++ (v ++ b) ∧ (chars a).getLast? = last ∧ chars v = w ∧ ∀ m ∈ v, m.inPlace = true

/-- The pattern can read a piece of the text of which some character is not in place. -/
def CrossesSeam (p : Pattern) (t : List Placed) : Prop :=
  ∃ a v b, t = a ++ (v ++ b) ∧ p.Reads (chars a).getLast? (chars v) (chars b) ∧
    ∃ m ∈ v, m.inPlace = false

@[simp] theorem chars_original (s : List Char) : chars (original s) = s := by
  rw [chars, original, List.map_map]
  exact List.map_id s

@[simp] theorem chars_cons (m : Placed) : chars (m :: t) = m.char :: chars t := rfl

@[simp] theorem chars_append : chars (t ++ u) = chars t ++ chars u := List.map_append

@[simp] theorem chars_drop (n : Nat) : chars (t.drop n) = (chars t).drop n := List.map_drop

theorem chars_written (w : List Char) : chars (w.map (⟨·, false⟩)) = w := by
  rw [chars, List.map_map]
  exact List.map_id w

theorem chars_mark (f : Hit → List Char) (ps : List Piece) :
    ∀ b t, chars (mark f b ps t) = ps.flatMap (Piece.write f) := by
  induction ps with
  | nil => intro b t; rfl
  | cons piece ps ih =>
    intro b t
    cases piece with
    | gap c => exact congrArg (c :: ·) (ih true t.tail)
    | hit h =>
      rw [mark, chars_append, ih, chars_written, List.flatMap_cons, Piece.write]

/-! ## One rule -/

/-- The first character behind a reading is not in place. -/
theorem inPlace_head_mark (ps : List Piece) :
    ∀ {t m u}, mark f false ps t = m :: u → m.inPlace = false := by
  induction ps with
  | nil => intro t m u h; exact absurd h.symm (List.cons_ne_nil _ _)
  | cons piece ps ih =>
    intro t m u h
    cases piece with
    | gap c =>
      obtain ⟨rfl, -⟩ := List.cons.inj h
      rfl
    | hit h' =>
      rw [mark] at h
      cases hf : f h' with
      | nil => exact ih (by rwa [hf] at h)
      | cons d more =>
        rw [hf] at h
        obtain ⟨rfl, -⟩ := List.cons.inj h
        rfl

/-- Characters in place at the beginning of the new text stand at the beginning of the old one. -/
theorem prefix_of_mark {s : List Char} {ps : List Piece} (h : p.Cuts last s ps) :
    ∀ {b t v u}, chars t = s → mark f b ps t = v ++ u → (∀ m ∈ v, m.inPlace = true) →
      ∃ v₀ u₀, t = v₀ ++ u₀ ∧ chars v₀ = chars v ∧ ∀ m ∈ v₀, m.inPlace = true := by
  induction h with
  | done last =>
    intro b t v u _ hm _
    obtain ⟨rfl, -⟩ := List.append_eq_nil_iff.mp hm.symm
    exact ⟨[], t, rfl, rfl, by simp⟩
  | @gap last c rest ps _ _ ih =>
    intro b t v u ht hm hv
    cases v with
    | nil => exact ⟨[], t, rfl, rfl, by simp⟩
    | cons x v =>
      obtain ⟨m, t, rfl, rfl, rfl⟩ := List.map_eq_cons_iff.mp ht
      obtain ⟨rfl, hm'⟩ := List.cons.inj hm
      obtain ⟨v₀, u₀, rfl, hc, h₀⟩ := ih rfl hm' fun m hm => hv m (List.mem_cons_of_mem _ hm)
      have hin : (b && m.inPlace) = true := hv _ List.mem_cons_self
      refine ⟨m :: v₀, u₀, rfl, congrArg (m.char :: ·) hc, ?_⟩
      exact List.forall_mem_cons.mpr ⟨(Bool.and_eq_true _ _ ▸ hin).2, h₀⟩
  | @hit last s h ps _ _ _ =>
    intro b t v u _ hm hv
    cases v with
    | nil => exact ⟨[], t, rfl, rfl, by simp⟩
    | cons x v =>
      have hx : x.inPlace = false := inPlace_head_mark (.hit h :: ps) hm
      exact absurd (hv x List.mem_cons_self) (by simp [hx])

/-- What a rule writes is not in place, so characters in place begin behind all of it. -/
theorem exists_behind_written {a x : List Placed} (h : w.map (⟨·, false⟩) ++ x = a ++ (v ++ u))
    (hv : v ≠ []) (hin : ∀ m ∈ v, m.inPlace = true) :
    ∃ a', a = w.map (⟨·, false⟩) ++ a' ∧ x = a' ++ (v ++ u) := by
  rcases List.append_eq_append_iff.mp h with ⟨l, rfl, hl⟩ | ⟨l, hl, hl'⟩
  · exact ⟨l, rfl, hl⟩
  · cases l with
    | nil => exact ⟨[], by rw [List.append_nil, hl, List.append_nil], hl'.symm⟩
    | cons m l =>
      obtain ⟨m', v, rfl⟩ := List.exists_cons_of_ne_nil hv
      obtain ⟨rfl, -⟩ := List.cons.inj hl'
      have hm : m' ∈ w.map (⟨·, false⟩) := by simp [hl]
      obtain ⟨c, -, rfl⟩ := List.mem_map.mp hm
      exact absurd (hin _ List.mem_cons_self) Bool.false_ne_true

/-- Characters in place in the new text stand behind the same character in the old one, and there
nothing is read at their beginning. The new text follows `before`, the old one `last`. -/
theorem stands_of_mark {s : List Char} {ps : List Piece} (h : p.Cuts last s ps) :
    ∀ {b t a v u before}, chars t = s → (b = true → before = last) →
      mark f b ps t = a ++ (v ++ u) → v ≠ [] → (∀ m ∈ v, m.inPlace = true) →
      ∃ a₀ v₀ u₀, t = a₀ ++ (v₀ ++ u₀) ∧
        (chars a₀).getLast?.or last = (chars a).getLast?.or before ∧ chars v₀ = chars v ∧
        (∀ m ∈ v₀, m.inPlace = true) ∧
        p.readAt ((chars a).getLast?.or before) (chars v₀ ++ chars u₀) = none := by
  induction h with
  | done last =>
    intro b t a v u before _ _ hm hv _
    exact absurd (List.append_eq_nil_iff.mp (List.append_eq_nil_iff.mp hm.symm).2).1 hv
  | @gap last c rest ps hr hc ih =>
    intro b t a v u before ht hb hm hv hin
    obtain ⟨m, t, rfl, rfl, rfl⟩ := List.map_eq_cons_iff.mp ht
    cases a with
    | nil =>
      obtain ⟨x, v, rfl⟩ := List.exists_cons_of_ne_nil hv
      obtain ⟨rfl, hm'⟩ := List.cons.inj hm
      have hx : (b && m.inPlace) = true := hin _ List.mem_cons_self
      obtain rfl := hb (Bool.and_eq_true _ _ ▸ hx).1
      obtain ⟨v₀, u₀, rfl, hcv, h₀⟩ :=
        prefix_of_mark hc rfl hm' fun m hm => hin m (List.mem_cons_of_mem _ hm)
      refine ⟨[], m :: v₀, u₀, rfl, rfl, congrArg (m.char :: ·) hcv, ?_, ?_⟩
      · exact List.forall_mem_cons.mpr ⟨(Bool.and_eq_true _ _ ▸ hx).2, h₀⟩
      · show p.readAt before (m.char :: (chars v₀ ++ chars u₀)) = none
        rw [← chars_append]
        exact hr
    | cons x a =>
      obtain ⟨rfl, hm'⟩ := List.cons.inj hm
      obtain ⟨a₀, v₀, u₀, rfl, hl, hcv, h₀, hn⟩ := ih rfl (fun _ => rfl) hm' hv hin
      refine ⟨m :: a₀, v₀, u₀, rfl, ?_, hcv, h₀, ?_⟩
      · rw [chars_cons, chars_cons, getLast?_cons_or, getLast?_cons_or, hl]
      · rwa [chars_cons, getLast?_cons_or]
  | @hit last s h ps hr hc ih =>
    intro b t a v u before ht _ hm hv hin
    obtain ⟨hs, -⟩ := reads_of_readAt hr
    have hd : chars (t.drop h.text.length) = h.after := by
      rw [chars_drop, ht, hs, List.drop_left]
    have htake : chars (t.take h.text.length) = h.text := by
      rw [chars, List.map_take, ← chars, ht, hs, List.take_left]
    obtain ⟨a', rfl, hm'⟩ := exists_behind_written hm hv hin
    have hb : false = true → (f h).getLast?.or before = h.text.getLast?.or last :=
      fun hb => absurd hb Bool.false_ne_true
    obtain ⟨a₀, v₀, u₀, ht₀, hl, hcv, h₀, hn⟩ := ih hd hb hm' hv hin
    refine ⟨t.take h.text.length ++ a₀, v₀, u₀, ?_, ?_, hcv, h₀, ?_⟩
    · rw [List.append_assoc, ← ht₀, List.take_append_drop]
    · rw [chars_append, chars_append, getLast?_append_or, getLast?_append_or, htake, chars_written,
        hl]
    · rwa [chars_append, getLast?_append_or, chars_written]

end Placed

namespace Rule

open Placed

variable {r : Rule} {rules : List Rule} {last : Option Char} {t : List Placed} {w : List Char}

/-- The text after the rule, with its marks. -/
def follow (r : Rule) (t : List Placed) : List Placed :=
  mark r.template.expand true (r.pattern.cut (chars t)) t

/-- The text after the rules, one after the other, with its marks. -/
def followAll (rules : List Rule) (t : List Placed) : List Placed :=
  rules.foldl (fun t r => r.follow t) t

theorem chars_follow (r : Rule) (t : List Placed) :
    chars (r.follow t) = (r.apply (String.ofList (chars t))).toList := by
  rw [follow, chars_mark, apply, toList_replace, String.toList_ofList]

theorem chars_followAll (rules : List Rule) : ∀ t, chars (followAll rules t) =
    (rules.foldl (fun s r => r.apply s) (String.ofList (chars t))).toList := by
  induction rules with
  | nil => intro t; exact String.toList_ofList.symm
  | cons r rules ih =>
    intro t
    rw [followAll, List.foldl_cons, ← followAll, ih, chars_follow, String.ofList_toList]
    rfl

/-- What stands together after a rule stood together before it, and the rule cannot read it. -/
theorem stands_of_follow (hp : r.pattern.takesSome = true) (hs : r.pattern.selfContained = true)
    (hw : w ≠ []) (h : Stands (r.follow t) last w) :
    Stands t last w ∧ ∀ rest, ¬ r.pattern.Reads last w rest := by
  obtain ⟨a, v, b, ht, rfl, rfl, hin⟩ := h
  have hv : v ≠ [] := fun hv => hw (congrArg chars hv)
  have hb : true = true → (none : Option Char) = none := fun _ => rfl
  obtain ⟨a₀, v₀, b₀, rfl, hl, hc, h₀, hn⟩ := stands_of_mark (cuts_cut hp (chars t)) rfl hb ht hv hin
  rw [Option.or_none, Option.or_none] at hl
  refine ⟨⟨a₀, v₀, b₀, rfl, hl, hc, h₀⟩, fun rest hr => ?_⟩
  rw [Option.or_none] at hn
  exact readAt_eq_none.mp hn (chars v) (chars b₀) (by rw [hc]) (hr.of_selfContained hs)

/-- What stands together after all the rules stood together in the first text, and none of the rules
can read it. -/
theorem stands_of_followAll (hw : w ≠ []) :
    ∀ {t}, (∀ r ∈ rules, r.pattern.takesSome = true ∧ r.pattern.selfContained = true) →
      Stands (followAll rules t) last w →
      Stands t last w ∧ ∀ r ∈ rules, ∀ rest, ¬ r.pattern.Reads last w rest := by
  induction rules with
  | nil => intro t _ h; exact ⟨h, by simp⟩
  | cons r rules ih =>
    intro t hp h
    obtain ⟨hr, hrs⟩ := List.forall_mem_cons.mp hp
    obtain ⟨h₁, hn⟩ := ih hrs h
    obtain ⟨h₂, hn'⟩ := stands_of_follow hr.1 hr.2 hw h₁
    exact ⟨h₂, List.forall_mem_cons.mpr ⟨hn', hn⟩⟩

/-- After the rules were applied one after the other, one of them can read a piece of the text
exactly when it can read a piece that crosses a seam. -/
theorem occursIn_foldl_apply_iff
    (hp : ∀ r ∈ rules, r.pattern.takesSome = true ∧ r.pattern.selfContained = true) (hr : r ∈ rules)
    (s : String) : r.occursIn (rules.foldl (fun s r => r.apply s) s) = true ↔
      CrossesSeam r.pattern (followAll rules (original s.toList)) := by
  have hc := chars_followAll rules (original s.toList)
  rw [chars_original, String.ofList_toList] at hc
  rw [Rule.occursIn, occursIn_iff (hp r hr).1, ← hc]
  constructor
  · rintro ⟨a', w', b', hs, hread⟩
    obtain ⟨a, t, ht, rfl, hs'⟩ := List.map_eq_append_iff.mp hs
    obtain ⟨v, b, rfl, rfl, rfl⟩ := List.map_eq_append_iff.mp hs'
    refine ⟨a, v, b, ht, hread, ?_⟩
    by_contra hn
    have hin : ∀ m ∈ v, m.inPlace = true := by
      intro m hm
      by_contra hm'
      exact hn ⟨m, hm, Bool.eq_false_iff.mpr hm'⟩
    have hw : chars v ≠ [] := hread.ne_nil (hp r hr).1
    exact (stands_of_followAll hw hp ⟨a, v, b, ht, rfl, rfl, hin⟩).2 r hr _ hread
  · rintro ⟨a, v, b, ht, hread, -⟩
    exact ⟨chars a, chars v, chars b, by rw [ht, chars_append, chars_append], hread⟩

/-! ## Rules that make texts shorter -/

/-- What the rule writes for a reading is shorter than the reading. -/
def Shortens (r : Rule) : Prop :=
  ∀ last s h, r.pattern.readAt last s = some h → (r.template.expand h).length < h.text.length

theorem length_flatMap_write {p : Pattern} {s : List Char} {ps : List Piece} {f : Hit → List Char}
    (hf : ∀ last s h, p.readAt last s = some h → (f h).length < h.text.length)
    (h : p.Cuts last s ps) : (ps.flatMap (Piece.write f)).length ≤ s.length ∧
      (ps.filterMap Piece.hit? ≠ [] → (ps.flatMap (Piece.write f)).length < s.length) := by
  induction h with
  | done last => simp
  | gap _ _ ih =>
    rw [List.flatMap_cons, List.length_append, List.length_cons]
    have h₁ : (Piece.write f (.gap ‹Char›)).length = 1 := rfl
    refine ⟨by omega, fun hn => ?_⟩
    have := ih.2 hn
    omega
  | @hit last s h ps hr _ ih =>
    have hlt := hf last s h hr
    have hs := congrArg List.length (reads_of_readAt hr).1
    rw [List.length_append] at hs
    rw [List.flatMap_cons, List.length_append, Piece.write]
    have := ih.1
    exact ⟨by omega, fun _ => by omega⟩

theorem length_apply (hp : r.pattern.takesSome = true) (hr : r.Shortens) (s : String) :
    (r.apply s).length ≤ s.length ∧ (r.occursIn s = true → (r.apply s).length < s.length) := by
  have h := length_flatMap_write hr (cuts_cut hp s.toList)
  rw [← toList_replace, String.length_toList, String.length_toList] at h
  exact ⟨h.1, fun ho => h.2 (occursIn_iff_hits.mp ho)⟩

theorem length_foldl_apply (hp : ∀ r ∈ rules, r.pattern.takesSome = true)
    (hr : ∀ r ∈ rules, r.Shortens) :
    ∀ s : String, (rules.foldl (fun s r => r.apply s) s).length ≤ s.length := by
  induction rules with
  | nil => intro s; exact Nat.le_refl _
  | cons r rules ih =>
    intro s
    obtain ⟨hp₁, hps⟩ := List.forall_mem_cons.mp hp
    obtain ⟨hr₁, hrs⟩ := List.forall_mem_cons.mp hr
    exact Nat.le_trans (ih hps hrs (r.apply s)) (length_apply hp₁ hr₁ s).1

/-- Rules that make texts shorter leave a text as it is exactly when none of them can read a piece
of it: what one of them changes no other can bring back. -/
theorem foldl_apply_eq_self_iff (hp : ∀ r ∈ rules, r.pattern.takesSome = true)
    (hr : ∀ r ∈ rules, r.Shortens) {s : String} :
    rules.foldl (fun s r => r.apply s) s = s ↔ ∀ r ∈ rules, r.occursIn s = false := by
  induction rules generalizing s with
  | nil => simp
  | cons r rules ih =>
    obtain ⟨hp₁, hps⟩ := List.forall_mem_cons.mp hp
    obtain ⟨hr₁, hrs⟩ := List.forall_mem_cons.mp hr
    rw [List.foldl_cons, List.forall_mem_cons]
    constructor
    · intro h
      have hn : r.occursIn s = false := by
        by_contra ho
        have h₁ := (length_apply hp₁ hr₁ s).2 (by simpa using ho)
        have h₂ := length_foldl_apply hps hrs (r.apply s)
        rw [h] at h₂
        omega
      rw [apply, replace_of_not_occursIn hn] at h
      exact ⟨hn, (ih hps hrs).mp h⟩
    · rintro ⟨hn, h⟩
      rw [apply, replace_of_not_occursIn hn]
      exact (ih hps hrs).mpr h

end Rule
end Workbench
