import Workbench.Markup.Element
import Workbench.Proofs.Pattern.Cut
import Workbench.Proofs.Text.Occurrence

/-!
# Script ends made harmless

The rule `scriptEnd` puts a backslash between `<` and `/` wherever `</script` begins, and changes
nothing else. Letters are compared by simple case folding, so besides the ASCII spellings the rule
also finds those with a long s (U+017F).

* `toList_apply_scriptEnd`: the rule is the insertion `backslashed` at every such place.
* `occurrences_apply_scriptEnd`: no ASCII spelling of `</script` is left.
* `apply_scriptEnd_twice`: a second pass changes nothing.
-/

namespace Workbench.Markup

open Pattern

variable {s rest : List Char}

/-- The beginning of a closing `script` tag, in lower case. -/
def scriptEndMarker : List Char := ['<', '/', 's', 'c', 'r', 'i', 'p', 't']

/-- The text begins with the lowercase letters when case is folded one to one. -/
def beginsFolded : List Char → List Char → Bool
  | [], _ => true
  | _ :: _, [] => false
  | letter :: letters, c :: rest => foldsTo letter c && beginsFolded letters rest

/-- The text with a backslash behind the first character of each place where `begins` holds. -/
def backslashed (begins : List Char → Bool) : List Char → List Char
  | [] => []
  | c :: rest =>
    if begins (c :: rest) then c :: '\\' :: backslashed begins rest
    else c :: backslashed begins rest

/-! ## Folding case -/

theorem eq_of_foldsTo {letter c : Char} (hl : letter.toNat < 97) (h : foldsTo letter c = true) :
    c = letter := by
  have hs : letter ≠ 's' := by rintro rfl; revert hl; decide
  have hk : letter ≠ 'k' := by rintro rfl; revert hl; decide
  refine Text.eq_of_toLower_eq hl ?_
  simpa [foldsTo, hs, hk] using h

/-- A character is a spelling of one ASCII letter at most. -/
theorem eq_of_foldsTo_of_foldsTo {letter other c : Char} (h : foldsTo letter c = true)
    (h' : foldsTo other c = true) (hl : letter.toNat < 128) (ho : other.toNat < 128) :
    letter = other := by
  have hlong : '\u017F'.toLower = '\u017F' ∧ ¬ '\u017F'.toNat < 128 := by decide
  have hkelvin : '\u212A'.toLower = '\u212A' ∧ ¬ '\u212A'.toNat < 128 := by decide
  simp only [foldsTo, Bool.or_eq_true, Bool.and_eq_true, beq_iff_eq] at h h'
  rcases h with (rfl | ⟨rfl, rfl⟩) | ⟨rfl, rfl⟩ <;> rcases h' with (h' | ⟨rfl, h'⟩) | ⟨rfl, h'⟩
  · exact h'
  · exact absurd (h' ▸ hl) (hlong.1 ▸ hlong.2)
  · exact absurd (h' ▸ hl) (hkelvin.1 ▸ hkelvin.2)
  · exact absurd (h' ▸ ho) (hlong.1 ▸ hlong.2)
  · rfl
  · exact absurd h' (by decide)
  · exact absurd (h' ▸ ho) (hkelvin.1 ▸ hkelvin.2)
  · exact absurd h' (by decide)
  · rfl

theorem beginsFolded_iff {letters : List Char} :
    beginsFolded letters s = true ↔
      ∃ w rest, s = w ++ rest ∧
        List.Forall₂ (fun letter c => foldsTo letter c = true) letters w := by
  induction letters generalizing s with
  | nil => exact iff_of_true rfl ⟨[], s, rfl, .nil⟩
  | cons letter letters ih =>
    cases s with
    | nil =>
      refine iff_of_false Bool.false_ne_true ?_
      rintro ⟨w, rest, hs, hw⟩
      obtain ⟨rfl, rfl⟩ := List.append_eq_nil_iff.mp hs.symm
      cases hw
    | cons c s =>
      rw [beginsFolded, Bool.and_eq_true, ih]
      constructor
      · rintro ⟨hc, w, rest, rfl, hw⟩
        exact ⟨c :: w, rest, rfl, .cons hc hw⟩
      · rintro ⟨_, rest, hs, _ | ⟨hc, hw⟩⟩
        obtain ⟨rfl, rfl⟩ := List.cons.inj hs
        exact ⟨hc, _, rest, rfl, hw⟩

theorem beginsFolded_of_beginsAnyCase {marker : List Char}
    (h : Text.beginsAnyCase marker s = true) : beginsFolded marker s = true := by
  obtain ⟨w, rest, rfl, rfl⟩ := Text.beginsAnyCase_iff.mp h
  refine beginsFolded_iff.mpr ⟨w, rest, rfl, ?_⟩
  induction w with
  | nil => exact .nil
  | cons c w ih =>
    exact .cons (by simp [foldsTo]) (ih (Text.beginsAnyCase_iff.mpr ⟨w, rest, rfl, rfl⟩))

theorem map_toLower_of_foldsTo {letters w : List Char}
    (h : List.Forall₂ (fun letter c => foldsTo letter c = true) letters w) (hk : 'k' ∉ letters)
    (hs : '\u017F' ∉ w) : w.map Char.toLower = letters := by
  induction h with
  | nil => rfl
  | @cons letter c letters w hc hw ih =>
    obtain ⟨hk', hk⟩ := not_or.mp (mt List.mem_cons.mpr hk)
    obtain ⟨hs', hs⟩ := not_or.mp (mt List.mem_cons.mpr hs)
    have hc' : c.toLower = letter := by
      simpa [foldsTo, Ne.symm hk', Ne.symm hs'] using hc
    rw [List.map_cons, hc', ih hk hs]

/-- Without `s` and `k` among its letters a text is read in its ASCII spellings only. -/
theorem forall₂_foldsTo_iff {letters w : List Char} (h : 's' ∉ letters ∧ 'k' ∉ letters) :
    List.Forall₂ (fun letter c => foldsTo letter c = true) letters w ↔
      w.map Char.toLower = letters := by
  induction letters generalizing w with
  | nil => cases w <;> simp
  | cons letter letters ih =>
    simp only [List.mem_cons, not_or] at h
    have hfold (c : Char) : foldsTo letter c = true ↔ c.toLower = letter := by
      simp [foldsTo, Ne.symm h.1.1, Ne.symm h.2.1]
    cases w with
    | nil => simp
    | cons c w => simp [hfold, ih ⟨h.1.2, h.2.2⟩]

/-- Without a long s only the ASCII spellings of a script end are found. -/
theorem beginsFolded_eq_beginsAnyCase (hs : '\u017F' ∉ s) :
    beginsFolded scriptEndMarker s = Text.beginsAnyCase scriptEndMarker s := by
  rw [Bool.eq_iff_iff]
  refine ⟨fun h => ?_, beginsFolded_of_beginsAnyCase⟩
  obtain ⟨w, rest, rfl, hw⟩ := beginsFolded_iff.mp h
  have hl : '\u017F' ∉ w := fun h => hs (List.mem_append_left rest h)
  exact Text.beginsAnyCase_iff.mpr ⟨w, rest, rfl, map_toLower_of_foldsTo hw (by decide) hl⟩

theorem backslashed_congr {begins begins' : List Char → Bool}
    (h : ∀ a b, s = a ++ b → begins b = begins' b) :
    backslashed begins s = backslashed begins' s := by
  induction s with
  | nil => rfl
  | cons c s ih =>
    rw [backslashed, backslashed, h [] (c :: s) rfl, ih fun a b hs => h (c :: a) b (congrArg _ hs)]

/-! ## The rule as an insertion -/

theorem reads_scriptEnd {last : Option Char} {w : List Char} :
    scriptEnd.pattern.Reads last w rest ↔
      List.Forall₂ (fun letter c => foldsTo letter c = true) scriptEndMarker w := by
  constructor
  · rintro ⟨_, _, rfl, ⟨a, ha, rfl⟩, _, v, rfl, ⟨b, hb, rfl⟩, hv⟩
    refine .cons ?_ (.cons ?_ ((reads_anyCase _).mp hv))
    · rw [eq_of_beq ha]; decide
    · rw [eq_of_beq hb]; decide
  · rintro (_ | ⟨ha, _ | ⟨hb, hv⟩⟩)
    obtain rfl := eq_of_foldsTo (by decide) ha
    obtain rfl := eq_of_foldsTo (by decide) hb
    exact ⟨['<'], _, rfl, ⟨_, rfl, rfl⟩, ['/'], _, rfl, ⟨_, rfl, rfl⟩, (reads_anyCase _).mpr hv⟩

theorem prefers_scriptEnd {last : Option Char} {v : List Char}
    (hv : List.Forall₂ (fun letter c => foldsTo letter c = true) "script".toList v) :
    scriptEnd.pattern.Prefers last ('<' :: '/' :: v) rest [⟨1, v ++ rest, v.length⟩] :=
  .seq (u := ['<']) (.char rfl) (.seq (u := ['/']) (.char rfl) (.group 1 (.anyCase hv)))

theorem expand_scriptEnd {w v : List Char} :
    scriptEnd.template.expand ⟨w, [⟨1, v ++ rest, v.length⟩], rest⟩ = '<' :: '\\' :: '/' :: v := by
  have hg : (⟨w, [⟨1, v ++ rest, v.length⟩], rest⟩ : Hit).groupText 1 = v := by
    simp [Hit.groupText, Hit.group?]
  simp only [scriptEnd, Template.expand, List.flatMap_cons, List.flatMap_nil, hg, List.append_nil]
  rfl

theorem readAt_scriptEnd {last : Option Char} {h : Hit}
    (hr : scriptEnd.pattern.readAt last s = some h) :
    ∃ v rest, s = '<' :: '/' :: (v ++ rest) ∧
      List.Forall₂ (fun letter c => foldsTo letter c = true) "script".toList v ∧
      h = ⟨'<' :: '/' :: v, [⟨1, v ++ rest, v.length⟩], rest⟩ := by
  obtain ⟨rfl, hread⟩ := reads_of_readAt hr
  obtain ⟨u, t, ht, ⟨a, ha, rfl⟩, u', v, rfl, ⟨b, hb, rfl⟩, hv⟩ := hread
  obtain rfl := eq_of_beq ha
  obtain rfl := eq_of_beq hb
  have hw := (reads_anyCase "script").mp hv
  refine ⟨v, h.after, by rw [ht]; rfl, hw, ?_⟩
  rw [ht] at hr
  exact Option.some.inj (hr.symm.trans (readAt_of_prefers (prefers_scriptEnd hw)))

theorem foldsTo_eq_false {letter c : Char} (hc : c = '<' ∨ c = '\\') (h : letter ≠ c) :
    foldsTo letter c = false := by
  have hl : c.toLower = c := by rcases hc with rfl | rfl <;> decide
  have hs : c ≠ '\u017F' := by rcases hc with rfl | rfl <;> decide
  have hk : c ≠ '\u212A' := by rcases hc with rfl | rfl <;> decide
  simp [foldsTo, hl, hs, hk, h.symm]

theorem ne_lt_of_forall₂ {letters v : List Char} (hl : '<' ∉ letters)
    (hv : List.Forall₂ (fun letter c => foldsTo letter c = true) letters v) : ∀ c ∈ v, c ≠ '<' := by
  induction hv with
  | nil => simp
  | @cons letter c letters v hc hv ih =>
    intro d hd
    rcases List.mem_cons.mp hd with rfl | hd
    · rintro rfl
      have hne : letter ≠ '<' := fun h => hl (h ▸ List.mem_cons_self)
      exact Bool.false_ne_true ((foldsTo_eq_false (Or.inl rfl) hne).symm.trans hc)
    · exact ih (List.not_mem_of_not_mem_cons hl) d hd

theorem beginsFolded_scriptEnd_of_ne {c : Char} (hc : c ≠ '<') :
    beginsFolded scriptEndMarker (c :: s) = false := by
  rw [scriptEndMarker, beginsFolded, Bool.and_eq_false_iff]
  exact Or.inl (Bool.eq_false_iff.mpr fun h => hc (eq_of_foldsTo (by decide) h))

/-- Only the first character of a script end begins one. -/
theorem backslashed_append {v : List Char} (hv : ∀ c ∈ v, c ≠ '<') :
    backslashed (beginsFolded scriptEndMarker) (v ++ rest) =
      v ++ backslashed (beginsFolded scriptEndMarker) rest := by
  induction v with
  | nil => rfl
  | cons c v ih =>
    have hc := beginsFolded_scriptEnd_of_ne (s := v ++ rest) (hv c List.mem_cons_self)
    rw [List.cons_append, backslashed, if_neg (by simp [hc]),
      ih fun d hd => hv d (List.mem_cons_of_mem c hd), List.cons_append]

theorem flatMap_write_scriptEnd {last : Option Char} {ps : List Piece}
    (h : scriptEnd.pattern.Cuts last s ps) :
    ps.flatMap (Piece.write scriptEnd.template.expand) =
      backslashed (beginsFolded scriptEndMarker) s := by
  induction h with
  | done last => rfl
  | @gap last c rest ps hr _ ih =>
    have hc : ¬ beginsFolded scriptEndMarker (c :: rest) = true := by
      intro hb
      obtain ⟨w, rest', hs, hw⟩ := beginsFolded_iff.mp hb
      exact readAt_eq_none.mp hr w rest' hs (reads_scriptEnd.mpr hw)
    rw [backslashed, if_neg hc, List.flatMap_cons, ih]
    rfl
  | @hit last s h ps hr _ ih =>
    obtain ⟨v, rest, rfl, hv, rfl⟩ := readAt_scriptEnd hr
    have hb : beginsFolded scriptEndMarker ('<' :: '/' :: (v ++ rest)) = true :=
      beginsFolded_iff.mpr ⟨'<' :: '/' :: v, rest, rfl, .cons rfl (.cons rfl hv)⟩
    have hlt : ∀ c ∈ '/' :: v, c ≠ '<' := by
      intro c hc
      rcases List.mem_cons.mp hc with rfl | hc
      · decide
      · exact ne_lt_of_forall₂ (by decide) hv c hc
    rw [backslashed, if_pos hb, ← List.cons_append, backslashed_append hlt, List.flatMap_cons, ih,
      Piece.write, expand_scriptEnd]
    rfl

/-- The rule puts a backslash between `<` and `/` at every script end and changes nothing else. -/
theorem toList_apply_scriptEnd (s : String) :
    (scriptEnd.apply s).toList = backslashed (beginsFolded scriptEndMarker) s.toList := by
  rw [Rule.apply, toList_replace]
  exact flatMap_write_scriptEnd (cuts_cut rfl s.toList)

/-! ## What is left after the rule -/

theorem beginsFolded_of_backslashed {begins : List Char → Bool} {letters : List Char}
    (hl : '\\' ∉ letters) (h : beginsFolded letters (backslashed begins s) = true) :
    beginsFolded letters s = true := by
  induction s generalizing letters with
  | nil => exact h
  | cons c s ih =>
    cases letters with
    | nil => rfl
    | cons letter letters =>
      have hl' : '\\' ∉ letters := List.not_mem_of_not_mem_cons hl
      rw [backslashed] at h
      split at h
      · rw [beginsFolded, Bool.and_eq_true] at h ⊢
        refine ⟨h.1, ?_⟩
        cases letters with
        | nil => rfl
        | cons letter' letters =>
          have hne : letter' ≠ '\\' := fun h => hl' (h ▸ List.mem_cons_self)
          have hb := h.2
          rw [beginsFolded, foldsTo_eq_false (Or.inr rfl) hne] at hb
          exact absurd hb Bool.false_ne_true
      · rw [beginsFolded, Bool.and_eq_true] at h ⊢
        exact ⟨h.1, ih hl' h.2⟩

/-- No script end is left, at any place. -/
theorem beginsFolded_backslashed (s : List Char) : ∀ a b,
    backslashed (beginsFolded scriptEndMarker) s = a ++ b →
      beginsFolded scriptEndMarker b = false := by
  induction s with
  | nil =>
    intro a b h
    obtain ⟨-, rfl⟩ := List.append_eq_nil_iff.mp h.symm
    rfl
  | cons c s ih =>
    intro a b h
    rw [backslashed] at h
    split at h
    · rename_i hb
      match a, h with
      | [], h =>
        subst h
        rw [scriptEndMarker, beginsFolded, beginsFolded, show foldsTo '/' '\\' = false by decide,
          Bool.false_and, Bool.and_false]
      | [_], h =>
        have hs : '\\' :: backslashed (beginsFolded scriptEndMarker) s = b := (List.cons.inj h).2
        rw [← hs]
        exact beginsFolded_scriptEnd_of_ne (by decide)
      | _ :: _ :: a, h => exact ih a b (List.cons.inj (List.cons.inj h).2).2
    · rename_i hb
      cases a with
      | nil =>
        subst h
        refine Bool.eq_false_iff.mpr fun h => hb ?_
        rw [scriptEndMarker, beginsFolded, Bool.and_eq_true] at h ⊢
        exact ⟨h.1, beginsFolded_of_backslashed (by decide) h.2⟩
      | cons d a => exact ih a b (List.cons.inj h).2

theorem backslashed_eq_self {begins : List Char → Bool}
    (h : ∀ a b, s = a ++ b → b ≠ [] → begins b = false) : backslashed begins s = s := by
  induction s with
  | nil => rfl
  | cons c s ih =>
    rw [backslashed, if_neg (by simp [h [] (c :: s) rfl (List.cons_ne_nil c s)]),
      ih fun a b hs => h (c :: a) b (congrArg _ hs)]

/-- A second pass changes nothing. -/
theorem apply_scriptEnd_twice (s : String) :
    scriptEnd.apply (scriptEnd.apply s) = scriptEnd.apply s := by
  rw [← String.toList_inj, toList_apply_scriptEnd, toList_apply_scriptEnd]
  exact backslashed_eq_self fun a b h _ => beginsFolded_backslashed s.toList a b h

/-- No ASCII spelling of `</script` is left. -/
theorem occurrences_apply_scriptEnd (s : String) :
    Text.occurrences scriptEndMarker (scriptEnd.apply s).toList = 0 := by
  rw [toList_apply_scriptEnd, Text.occurrences_eq_zero_iff (by decide)]
  intro a w b h hw
  have hb := beginsFolded_backslashed s.toList a (w ++ b) h
  rw [beginsFolded_of_beginsAnyCase (Text.beginsAnyCase_iff.mpr ⟨w, b, rfl, hw⟩)] at hb
  cases hb

theorem getLast?_backslashed (s : List Char) :
    (backslashed (beginsFolded scriptEndMarker) s).getLast? = s.getLast? := by
  induction s with
  | nil => rfl
  | cons c s ih =>
    rw [backslashed]
    split
    · rename_i hb
      cases s with
      | nil =>
        rw [scriptEndMarker, beginsFolded, beginsFolded, Bool.and_false] at hb
        cases hb
      | cons d s =>
        simp [List.getLast?_cons, ih]
    · rw [List.getLast?_cons, List.getLast?_cons, ih]

end Workbench.Markup
