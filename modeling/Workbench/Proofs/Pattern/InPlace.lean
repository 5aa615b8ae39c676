import Workbench.Proofs.Pattern.Cut

/-!
# What stays in place when a text is rewritten

A rewritten text is the text with each reading replaced where it stands: what is between the readings
stays, in the same order (`exists_turns_replace`). If every reading is written as it is, so is the text
(`replace_of_kept`).
-/

namespace Workbench.Pattern

variable {p : Pattern} {last : Option Char} {s out : List Char} {ps : List Piece}
  {f : Hit → List Char}

/-- A reading in a text, the text between it and the reading before, and what is written for it. -/
structure Replacement where
  before : List Char
  hit : Hit
  written : List Char

/-- The replacements, from left to right, turn the first text into the second. Around them the two
texts are the same. -/
inductive Turns : List Replacement → List Char → List Char → Prop
  | done (rest : List Char) : Turns [] rest rest
  | next (r : Replacement) {rs : List Replacement} {out : List Char} :
    Turns rs r.hit.after out →
      Turns (r :: rs) (r.before ++ (r.hit.text ++ r.hit.after)) (r.before ++ (r.written ++ out))

/-- The reading, with what is written for it. -/
def Replacement.pair (r : Replacement) : Hit × List Char := (r.hit, r.written)

/-- A character before the first replacement stays. -/
theorem Turns.cons {rs : List Replacement} (h : Turns rs s out) (c : Char) :
    ∃ rs', Turns rs' (c :: s) (c :: out) ∧
      rs'.map Replacement.pair = rs.map Replacement.pair := by
  cases h with
  | done => exact ⟨[], .done (c :: s), rfl⟩
  | @next r rs out h => exact ⟨⟨c :: r.before, r.hit, r.written⟩ :: rs, .next _ h, rfl⟩

theorem Cuts.exists_turns (h : p.Cuts last s ps) (f : Hit → List Char) :
    ∃ rs, Turns rs s (ps.flatMap (Piece.write f)) ∧
      rs.map Replacement.pair = (ps.filterMap Piece.hit?).map fun h => (h, f h) := by
  induction h with
  | done => exact ⟨[], .done [], rfl⟩
  | @gap last c rest ps _ _ ih =>
    obtain ⟨rs, hturns, hpairs⟩ := ih
    obtain ⟨rs', hturns', hpairs'⟩ := hturns.cons c
    exact ⟨rs', hturns', hpairs'.trans hpairs⟩
  | @hit last s h ps hr _ ih =>
    obtain ⟨rs, hturns, hpairs⟩ := ih
    refine ⟨⟨[], h, f h⟩ :: rs, ?_, congrArg ((h, f h) :: ·) hpairs⟩
    rw [(reads_of_readAt hr).1]
    exact .next ⟨[], h, f h⟩ hturns

/-- Each reading is replaced where it stands, and the text around them stays. -/
theorem exists_turns_replace (hp : p.takesSome = true) (f : Hit → List Char) (s : String) :
    ∃ rs, Turns rs s.toList (p.replace f s).toList ∧
      rs.map Replacement.pair = (p.hits s).map fun h => (h, f h) := by
  rw [toList_replace]
  exact (cuts_cut hp s.toList).exists_turns f

/-- If every reading is written as it is, the text stays as it is. -/
theorem replace_of_kept {s : String} (h : ∀ h ∈ p.hits s, f h = h.text) : p.replace f s = s := by
  have hw : ∀ piece ∈ p.cut s.toList, Piece.write f piece = piece.text := by
    intro piece hpiece
    cases piece with
    | gap c => rfl
    | hit h' => exact h h' (mem_hits.mpr hpiece)
  rw [← String.toList_inj, toList_replace, List.flatMap_congr hw, flatMap_piece_cut]

/-! ## What is not brought in -/

/-- The text is no part of `w`, and neither the first nor the last character of `w` stands in it. So `w`
neither begins nor ends in it and does not run over it. -/
structure StaysOut (w text : List Char) : Prop where
  not_infix : ¬ text <:+: w
  head_not_mem : ∀ c, w.head? = some c → c ∉ text
  last_not_mem : ∀ c, w.getLast? = some c → c ∉ text

variable {v w : List Char}

theorem StaysOut.not_prefix {text : List Char} (h : StaysOut w text) (hv : v <:+ w) (hne : v ≠ []) :
    ¬ v <+: text := fun hp => by
  have hlast := v.getLast?_eq_some_getLast hne
  have hw : w.getLast? = some (v.getLast hne) := by
    obtain ⟨u, rfl⟩ := hv
    rw [List.getLast?_append, hlast, Option.some_or]
  exact h.last_not_mem _ hw (hp.subset (List.mem_of_getLast? hlast))

/-- The end of `w` at the beginning of the written text stood at the beginning of the text. -/
theorem prefix_of_prefix_write (hf : ∀ x ∈ ps, x.write f = x.text ∨ StaysOut w (x.write f)) :
    ∀ {v}, v <:+ w → v <+: ps.flatMap (Piece.write f) → v <+: ps.flatMap Piece.text := by
  induction ps with
  | nil => exact fun _ h => h
  | cons x ps ih =>
    rw [List.forall_mem_cons] at hf
    intro v hv h
    rw [List.flatMap_cons] at h ⊢
    rcases List.prefix_or_prefix_of_prefix h (List.prefix_append _ _) with hx | ⟨v', rfl⟩
    · rcases hf.1 with hkept | hout
      · exact (hkept ▸ hx).trans (List.prefix_append _ _)
      · by_cases hne : v = []
        · exact hne ▸ List.nil_prefix
        · exact absurd hx (hout.not_prefix hv hne)
    · rw [List.prefix_append_right_inj] at h
      have hrest := ih hf.2 ((List.suffix_append _ _).trans hv) h
      rcases hf.1 with hkept | hout
      · rw [hkept, List.prefix_append_right_inj]
        exact hrest
      · exact absurd ((List.prefix_append _ _).isInfix.trans hv.isInfix) hout.not_infix

/-- What stands in the written text stood in the text, if it stays out of all that was replaced. -/
theorem infix_of_infix_write (hw : w ≠ [])
    (hf : ∀ x ∈ ps, x.write f = x.text ∨ StaysOut w (x.write f))
    (h : w <:+: ps.flatMap (Piece.write f)) : w <:+: ps.flatMap Piece.text := by
  induction ps with
  | nil => exact h
  | cons x ps ih =>
    obtain ⟨hx, hrest⟩ := List.forall_mem_cons.mp hf
    obtain ⟨a, b, hab⟩ := h
    rw [List.flatMap_cons] at hab ⊢
    rw [List.append_assoc] at hab
    rcases List.append_eq_append_iff.mp hab with ⟨t, hwrite, hbegins⟩ | ⟨a', -, hlater⟩
    · -- `w` begins in this piece or right behind it.
      have hprefix : w <+: t ++ ps.flatMap (Piece.write f) := ⟨b, hbegins⟩
      rcases hx with hkept | hout
      · rw [← hkept, hwrite, List.append_assoc]
        refine List.IsInfix.trans (List.IsPrefix.isInfix ?_) (List.suffix_append _ _).isInfix
        rcases List.prefix_or_prefix_of_prefix hprefix (List.prefix_append _ _) with ht | ⟨v, rfl⟩
        · exact ht.trans (List.prefix_append _ _)
        · rw [List.prefix_append_right_inj] at hprefix ⊢
          exact prefix_of_prefix_write hrest (List.suffix_append _ _) hprefix
      · cases t with
        | nil => exact (ih hrest hprefix.isInfix).trans (List.suffix_append _ _).isInfix
        | cons c t =>
          obtain ⟨d, w, rfl⟩ := List.exists_cons_of_ne_nil hw
          obtain rfl : d = c := (List.cons.inj hbegins).1
          exact absurd (hwrite ▸ by simp) (hout.head_not_mem d rfl)
    · have hinfix : w <:+: ps.flatMap (Piece.write f) := ⟨a', b, by rw [List.append_assoc, hlater]⟩
      exact (ih hrest hinfix).trans (List.suffix_append _ _).isInfix

/-- The rule brings a text in nowhere if it stays out of all that the rule replaces. -/
theorem infix_of_infix_replace {s : String} (hw : w ≠ [])
    (hf : ∀ h ∈ p.hits s, f h = h.text ∨ StaysOut w (f h)) (h : w <:+: (p.replace f s).toList) :
    w <:+: s.toList := by
  rw [toList_replace] at h
  rw [← flatMap_piece_cut p s.toList]
  refine infix_of_infix_write hw (fun x hx => ?_) h
  cases x with
  | gap c => exact .inl rfl
  | hit h' => exact hf h' (mem_hits.mpr hx)

end Workbench.Pattern
