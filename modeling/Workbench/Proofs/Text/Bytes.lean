import Workbench.Proofs.Text.Lowercase

/-!
# Texts as bytes

Where the bytes of an ASCII marker stand in the UTF-8 bytes of a text, the marker stands in the text:
no byte of it is part of a longer character (`exists_of_utf8_eq`). Lowering the ASCII capitals keeps the
number of bytes of each character (`length_utf8_map_toLower`). So an offset at which the marker is found
in the lowered text is one between two characters of the text itself.
-/

namespace Workbench.Text

variable {m s : List Char} {c d : Char} {b : UInt8} {x y rest : List UInt8}

/-- The characters in UTF-8. -/
def utf8 (s : List Char) : List UInt8 := s.flatMap String.utf8EncodeChar

theorem toUTF8_eq (s : String) : s.toUTF8.data.toList = utf8 s.toList := by
  conv_lhs => rw [← String.ofList_toList (s := s)]
  rw [String.toUTF8_eq_toByteArray]
  exact List.toList_data_toByteArray

theorem utf8_cons (c : Char) (s : List Char) : utf8 (c :: s) = String.utf8EncodeChar c ++ utf8 s :=
  List.flatMap_cons

theorem utf8_append (s t : List Char) : utf8 (s ++ t) = utf8 s ++ utf8 t := List.flatMap_append

theorem length_utf8 (s : String) : (utf8 s.toList).length = s.utf8ByteSize := by
  rw [← toUTF8_eq]
  rfl

/-! ## ASCII characters -/

theorem utf8EncodeChar_of_lt (hc : c.toNat < 0x80) :
    String.utf8EncodeChar c = [UInt8.ofNat c.toNat] := by
  unfold String.utf8EncodeChar
  exact if_pos (Nat.le_of_lt_succ hc)

theorem toNat_ofNat_of_lt {n : Nat} (h : n < 0x80) : (UInt8.ofNat n).toNat = n :=
  UInt8.toNat_ofNat_of_lt' (Nat.lt_trans h (by decide))

/-- Each byte of a character beyond ASCII is beyond ASCII. -/
theorem le_of_mem_utf8EncodeChar (hc : 0x80 ≤ c.toNat) (hb : b ∈ String.utf8EncodeChar c) :
    0x80 ≤ b.toNat := by
  have hlead {n k : Nat} (hk : 0x80 ≤ k) (hn : n + k < 256) : 0x80 ≤ (UInt8.ofNat (n + k)).toNat := by
    rw [UInt8.toNat_ofNat_of_lt' hn]
    omega
  have hc : ¬ c.val.toNat ≤ 127 := Nat.not_le_of_lt hc
  unfold String.utf8EncodeChar at hb
  simp only [if_neg hc] at hb
  split at hb
  · simp only [List.mem_cons, List.not_mem_nil, or_false] at hb
    rcases hb with rfl | rfl <;> exact hlead (by decide) (by omega)
  · split at hb
    · simp only [List.mem_cons, List.not_mem_nil, or_false] at hb
      rcases hb with rfl | rfl | rfl <;> exact hlead (by decide) (by omega)
    · simp only [List.mem_cons, List.not_mem_nil, or_false] at hb
      rcases hb with rfl | rfl | rfl | rfl <;> exact hlead (by decide) (by omega)

/-- A character one of whose bytes is ASCII has no other byte. -/
theorem eq_of_mem_utf8EncodeChar (hc : c.toNat < 0x80)
    (h : UInt8.ofNat c.toNat ∈ String.utf8EncodeChar d) : d = c := by
  by_cases hd : d.toNat < 0x80
  · rw [utf8EncodeChar_of_lt hd, List.mem_singleton] at h
    have hn := congrArg UInt8.toNat h
    rw [toNat_ofNat_of_lt hc, toNat_ofNat_of_lt hd] at hn
    exact Char.toNat_inj.mp hn.symm
  · have hle := le_of_mem_utf8EncodeChar (Nat.le_of_not_lt hd) h
    rw [toNat_ofNat_of_lt hc] at hle
    omega

theorem utf8EncodeChar_ne_nil (c : Char) : String.utf8EncodeChar c ≠ [] := by
  intro h
  have hn := congrArg List.length h
  rw [String.length_utf8EncodeChar] at hn
  exact absurd hn (Nat.ne_of_gt c.utf8Size_pos)

/-- A text whose bytes begin with those of an ASCII marker begins with the marker. -/
theorem exists_of_utf8_eq_utf8_append (hm : ∀ c ∈ m, c.toNat < 0x80) (h : utf8 s = utf8 m ++ y) :
    ∃ v, s = m ++ v ∧ utf8 v = y := by
  induction m generalizing s with
  | nil => exact ⟨s, rfl, h⟩
  | cons c m ih =>
    obtain ⟨hc, hrest⟩ := List.forall_mem_cons.mp hm
    rw [utf8_cons, utf8EncodeChar_of_lt hc, List.singleton_append, List.cons_append] at h
    cases s with
    | nil => exact absurd h.symm (List.cons_ne_nil _ _)
    | cons d s =>
      have hd : d = c := by
        refine eq_of_mem_utf8EncodeChar hc ?_
        obtain ⟨b, bs, hb⟩ := List.exists_cons_of_ne_nil (utf8EncodeChar_ne_nil d)
        rw [utf8_cons, hb, List.cons_append] at h
        rw [hb, (List.cons.inj h).1]
        exact List.mem_cons_self
      subst hd
      rw [utf8_cons, utf8EncodeChar_of_lt hc, List.singleton_append] at h
      obtain ⟨v, rfl, hv⟩ := ih hrest (List.cons.inj h).2
      exact ⟨v, rfl, hv⟩

/-- Where the bytes of an ASCII marker stand in a text, the marker stands between two parts of the
text. -/
theorem exists_of_utf8_eq (hm : ∀ c ∈ m, c.toNat < 0x80) (hne : m ≠ [])
    (h : utf8 s = x ++ (utf8 m ++ y)) : ∃ u v, s = u ++ (m ++ v) ∧ utf8 u = x ∧ utf8 v = y := by
  induction s generalizing x with
  | nil =>
    obtain ⟨-, h⟩ := List.append_eq_nil_iff.mp h.symm
    obtain ⟨v, hv, -⟩ := exists_of_utf8_eq_utf8_append (s := []) hm h.symm
    exact absurd (List.append_eq_nil_iff.mp hv.symm).1 hne
  | cons d s ih =>
    rw [utf8_cons] at h
    rcases List.append_eq_append_iff.mp h with ⟨w, rfl, hs⟩ | ⟨w, hd, hw⟩
    · obtain ⟨u, v, rfl, rfl, hv⟩ := ih hs
      exact ⟨d :: u, v, rfl, rfl, hv⟩
    · -- the marker begins in the first character, so either at its beginning or behind it
      cases w with
      | nil =>
        rw [List.append_nil] at hd
        obtain ⟨v, rfl, hv⟩ := exists_of_utf8_eq_utf8_append hm hw.symm
        exact ⟨[d], v, rfl, by rw [← hd, utf8_cons, utf8, List.flatMap_nil, List.append_nil], hv⟩
      | cons b w =>
        obtain ⟨c, m, rfl⟩ := List.exists_cons_of_ne_nil hne
        have hc := hm c List.mem_cons_self
        have hb : b = UInt8.ofNat c.toNat := by
          rw [utf8_cons, utf8EncodeChar_of_lt hc] at hw
          exact (List.cons.inj hw).1.symm
        obtain rfl : d = c := eq_of_mem_utf8EncodeChar hc (hd ▸ hb ▸ by simp)
        rw [utf8EncodeChar_of_lt hc] at hd
        obtain rfl : x = [] := by
          cases x with
          | nil => rfl
          | cons e x => simp at hd
        obtain ⟨v, hv, hy⟩ := exists_of_utf8_eq_utf8_append (s := d :: s) hm (utf8_cons d s ▸ h)
        exact ⟨[], v, hv, rfl, hy⟩

/-! ## ASCII letter case -/

theorem length_utf8EncodeChar_toLower (c : Char) :
    (String.utf8EncodeChar c.toLower).length = (String.utf8EncodeChar c).length := by
  rcases Nat.lt_or_ge c.toNat 0x80 with hc | hc
  · have hl : c.toLower.toNat < 0x80 := by
      have hall : ∀ n < 0x80, (Char.ofNat n).toLower.toNat < 0x80 := by decide
      have h := hall c.toNat hc
      rwa [Char.ofNat_toNat] at h
    rw [utf8EncodeChar_of_lt hc, utf8EncodeChar_of_lt hl]
    rfl
  · rw [toLower_of_le hc]

/-- A text and the text with its ASCII capitals in lower case have the same number of bytes. -/
theorem length_utf8_map_toLower (s : List Char) :
    (utf8 (s.map Char.toLower)).length = (utf8 s).length := by
  induction s with
  | nil => rfl
  | cons c s ih =>
    rw [List.map_cons, utf8_cons, utf8_cons, List.length_append, List.length_append,
      length_utf8EncodeChar_toLower, ih]

end Workbench.Text
