import Mathlib.Data.List.Infix
import Workbench.Text.Basic
import Workbench.Text.Lowercase

/-!
# Endings in lower case

Beyond ASCII a capital can have a lowercase form in ASCII: `İ` becomes `i` and a combining dot, and the
Kelvin sign becomes `k`. Any other ASCII character is the lowercase form of itself and of its ASCII
capital alone. So a text ends with such characters in lower case exactly when it does in ASCII lower
case (`suffix_lowercase_iff`).
-/

namespace Workbench.Text

/-- An ASCII character that is no capital and the lowercase form of no character beyond ASCII. -/
def isSteady (d : Char) : Bool :=
  0 < d.toNat && d.toNat < 0x80 && d.toLower == d && d != 'i' && d != 'k'

variable {c d : Char}

theorem isSteady_iff : isSteady d = true ↔
    (0 < d.toNat ∧ d.toNat < 0x80) ∧ d.toLower = d ∧ d ≠ 'i' ∧ d ≠ 'k' := by
  simp [isSteady, and_assoc]

/-! ## Single characters -/

theorem toNat_ofNat (n : Nat) : (Char.ofNat n).toNat = n ∨ (Char.ofNat n).toNat = 0 := by
  by_cases h : n.isValidChar
  · exact .inl (congrArg Char.toNat (dif_pos h))
  · exact .inr (congrArg Char.toNat (dif_neg h))

/-- Of the mappings beyond ASCII that of the Kelvin sign alone leads into ASCII. -/
theorem lowercaseRuns_images : (lowercaseRuns.all fun r =>
    Nat.ble 0x80 r.image || (r.first == r.last && r.image == 0x6B)) = true := by
  decide +kernel

theorem not_isSteady_image {r : CaseRun} (hr : r ∈ lowercaseRuns) {n m : Nat}
    (hm : r.image? n = some m) : isSteady (Char.ofNat m) = false := by
  have himage := List.all_eq_true.mp lowercaseRuns_images r hr
  rw [Bool.or_eq_true, Bool.and_eq_true, Nat.ble_eq, beq_iff_eq, beq_iff_eq] at himage
  unfold CaseRun.image? at hm
  split at hm
  · rename_i hn
    obtain rfl := Option.some.inj hm
    rcases himage with h | ⟨hsingle, h⟩
    · rw [Bool.eq_false_iff, Ne, isSteady_iff]
      have := toNat_ofNat (r.image + (n - r.first))
      omega
    · have hk : r.image + (n - r.first) = 0x6B := by omega
      rw [hk]
      rfl
  · exact absurd hm (by simp)

/-- Beyond ASCII no lowercase form holds a steady character. -/
theorem not_isSteady_of_mem_lowerChar (hc : 0x80 ≤ c.toNat) (hd : d ∈ lowerChar c) :
    isSteady d = false := by
  rw [lowerChar, if_neg (by omega)] at hd
  split at hd
  · rcases List.mem_pair.mp hd with rfl | rfl <;> rfl
  · obtain rfl := List.mem_singleton.mp hd
    cases hf : lowercaseRuns.findSome? (·.image? c.toNat) with
    | none =>
      rw [Bool.eq_false_iff, Ne, isSteady_iff]
      simp only [Option.map_none, Option.getD_none]
      omega
    | some m =>
      obtain ⟨r, hr, hm⟩ := List.exists_of_findSome?_eq_some hf
      exact not_isSteady_image hr hm

/-- The lowercase form of a character at some place in a text: a steady one is that of ASCII, and any
other holds no steady character. -/
structure IsLower (c : Char) (image : List Char) : Prop where
  ne_nil : image ≠ []
  steady : isSteady c.toLower = true → image = [c.toLower]
  other : isSteady c.toLower = false → ∀ d ∈ image, isSteady d = false

theorem toLower_of_le (hc : 0x80 ≤ c.toNat) : c.toLower = c := by
  have hn : ¬ (c.val ≥ 65 ∧ c.val ≤ 90) := fun h => by
    have : c.toNat ≤ 90 := h.2
    omega
  exact dif_neg hn

theorem isLower_lowerChar (c : Char) : IsLower c (lowerChar c) := by
  by_cases hc : c.toNat < 0x80
  · rw [lowerChar, if_pos hc]
    exact ⟨List.cons_ne_nil _ _, fun _ => rfl, fun h d hd => List.mem_singleton.mp hd ▸ h⟩
  · have hlow := toLower_of_le (Nat.le_of_not_lt hc)
    have hn : isSteady c.toLower = false := by
      rw [hlow, Bool.eq_false_iff, Ne, isSteady_iff]
      omega
    refine ⟨?_, fun h => absurd (hn.symm.trans h) Bool.false_ne_true, fun _ d hd =>
      not_isSteady_of_mem_lowerChar (Nat.le_of_not_lt hc) hd⟩
    rw [lowerChar, if_neg hc]
    split <;> exact List.cons_ne_nil _ _

theorem isLower_sigma (b : Bool) : IsLower 'Σ' [if b then 'ς' else 'σ'] := by
  refine ⟨List.cons_ne_nil _ _, fun h => absurd h (by decide), fun _ d hd => ?_⟩
  rw [List.mem_singleton.mp hd]
  cases b <;> rfl

/-! ## Texts -/

theorem exists_images (s : List Char) : ∀ before, ∃ ps : List (Char × List Char),
    (∀ p ∈ ps, IsLower p.1 p.2) ∧ ps.map Prod.fst = s ∧
      lowerAfter before s = ps.flatMap Prod.snd := by
  induction s with
  | nil => exact fun _ => ⟨[], by simp, rfl, rfl⟩
  | cons c rest ih =>
    intro before
    obtain ⟨ps, hps, hfst, hsnd⟩ := ih (c :: before)
    rw [lowerAfter, hsnd]
    split
    · rename_i hc
      subst hc
      exact ⟨('Σ', _) :: ps, List.forall_mem_cons.mpr ⟨isLower_sigma _, hps⟩, congrArg _ hfst, rfl⟩
    · exact ⟨(c, _) :: ps, List.forall_mem_cons.mpr ⟨isLower_lowerChar c, hps⟩, congrArg _ hfst, rfl⟩

/-- A text that ends with no steady character has no ending of steady characters. -/
theorem eq_nil_of_suffix {m u v : List Char} (hv : v ≠ []) (hn : ∀ d ∈ v, isSteady d = false)
    (hm : ∀ d ∈ m, isSteady d = true) (h : m <:+ u ++ v) : m = [] := by
  rcases List.eq_nil_or_concat m with rfl | ⟨t, d, rfl⟩
  · rfl
  · have hlast : v.getLast? = some d := by
      obtain ⟨x, hx⟩ := h
      simp [← List.getLast?_append_of_ne_nil u hv, ← hx]
    have hd := hn d (List.mem_of_getLast? hlast)
    exact absurd (hm d (by simp)) (by simp [hd])

theorem suffix_flatMap_iff {m : List Char} {ps : List (Char × List Char)}
    (hps : ∀ p ∈ ps, IsLower p.1 p.2) (hm : ∀ d ∈ m, isSteady d = true) :
    m <:+ ps.flatMap Prod.snd ↔ m <:+ ps.map fun p => p.1.toLower := by
  induction ps using List.reverseRecOn generalizing m with
  | nil => rfl
  | append_singleton ps p ih =>
    rw [List.forall_mem_append] at hps
    have hp := hps.2 p List.mem_cons_self
    rw [List.flatMap_append, List.flatMap_singleton, List.map_append, List.map_singleton]
    cases hc : isSteady p.1.toLower with
    | true =>
      rw [hp.steady hc, List.suffix_concat_iff, List.suffix_concat_iff]
      refine or_congr_right (exists_congr fun t => and_congr_right fun ht => ih hps.1 fun d hd => ?_)
      exact hm d (ht ▸ List.mem_append_left _ hd)
    | false =>
      -- neither text ends with a steady character
      constructor
      · intro h
        rw [eq_nil_of_suffix hp.ne_nil (hp.other hc) hm h]
        exact List.nil_suffix
      · intro h
        rw [eq_nil_of_suffix (List.cons_ne_nil _ _) (by simp [hc]) hm h]
        exact List.nil_suffix

/-- In lower case a text ends with steady characters when it does in ASCII lower case. -/
theorem suffix_lowercase_iff {m : List Char} (hm : ∀ d ∈ m, isSteady d = true) (s : String) :
    m <:+ (lowercase s).toList ↔ m <:+ (asciiLower s).toList := by
  obtain ⟨ps, hps, hfst, hsnd⟩ := exists_images s.toList []
  rw [lowercase, String.toList_ofList, hsnd, toList_asciiLower, ← hfst, List.map_map]
  exact suffix_flatMap_iff hps hm

end Workbench.Text
