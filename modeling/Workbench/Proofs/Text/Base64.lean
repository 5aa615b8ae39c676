import Mathlib.Tactic.Common
import Workbench.Text.Base64

/-!
# Base64 texts

A base64 text is made of the 64 digits and the padding `=` (`mem_encodeBytes`). So it holds no
bracket and no quote, whatever it stands for. Reading it gives the bytes back (`decode?_encode`).
-/

namespace Workbench.Text.Base64

theorem value?_digit : ∀ {n : Nat}, n < 64 → value? (digit n) = some n := by
  decide

theorem mem_encodeBytes (bytes : List UInt8) {c : Char} (h : c ∈ encodeBytes bytes) :
    (∃ n < 64, c = digit n) ∨ c = '=' := by
  fun_induction encodeBytes bytes with
  | case1 => exact absurd h List.not_mem_nil
  | case2 a =>
    have ha := a.toNat_lt
    simp only [List.mem_cons, List.not_mem_nil, or_false, or_self] at h
    rcases h with rfl | rfl | rfl
    · exact .inl ⟨_, by omega, rfl⟩
    · exact .inl ⟨_, by omega, rfl⟩
    · exact .inr rfl
  | case3 a b =>
    have ha := a.toNat_lt
    have hb := b.toNat_lt
    simp only [List.mem_cons, List.not_mem_nil, or_false] at h
    rcases h with rfl | rfl | rfl | rfl
    · exact .inl ⟨_, by omega, rfl⟩
    · exact .inl ⟨_, by omega, rfl⟩
    · exact .inl ⟨_, by omega, rfl⟩
    · exact .inr rfl
  | case4 a b c rest ih =>
    have ha := a.toNat_lt
    have hb := b.toNat_lt
    have hc := c.toNat_lt
    simp only [List.mem_cons] at h
    rcases h with rfl | rfl | rfl | rfl | h
    · exact .inl ⟨_, by omega, rfl⟩
    · exact .inl ⟨_, by omega, rfl⟩
    · exact .inl ⟨_, by omega, rfl⟩
    · exact .inl ⟨_, by omega, rfl⟩
    · exact ih h

/-- What is neither a digit nor the padding stands in no base64 text. -/
theorem not_mem_encode {c : Char} (hv : value? c = none) (hp : c ≠ '=') (bytes : List UInt8) :
    c ∉ (encode bytes).toList := by
  intro h
  rw [encode, String.toList_ofList] at h
  rcases mem_encodeBytes _ h with ⟨n, hn, rfl⟩ | rfl
  · exact Option.some_ne_none n ((value?_digit hn).symm.trans hv)
  · exact hp rfl

/-! ## Reading the digits -/

theorem digit_ne_padding : ∀ {n : Nat}, n < 64 → digit n ≠ '=' := by
  decide

/-- Two digits hold a byte between them. -/
theorem ofNat_eq {n : Nat} {a : UInt8} (h : n = a.toNat) : UInt8.ofNat n = a := by
  rw [h, UInt8.ofNat_toNat]

theorem decodeDigits_encodeBytes (bytes : List UInt8) :
    decodeDigits (encodeBytes bytes) = some bytes := by
  fun_induction encodeBytes bytes with
  | case1 => rfl
  | case2 a =>
    have ha := a.toNat_lt
    have hx : value? (digit (a.toNat / 4)) = _ := value?_digit (by omega)
    have hy : value? (digit (a.toNat % 4 * 16)) = _ := value?_digit (by omega)
    have h₁ : UInt8.ofNat (a.toNat / 4 * 4 + a.toNat % 4 * 16 / 16) = a := ofNat_eq (by omega)
    have hpad : a.toNat % 4 * 16 % 16 = 0 := by omega
    simp only [decodeDigits, hx, hy, h₁, hpad, Option.bind_eq_bind, Option.bind_some, if_true]
  | case3 a b =>
    have ha := a.toNat_lt
    have hb := b.toNat_lt
    have hx : value? (digit (a.toNat / 4)) = _ := value?_digit (by omega)
    have hy : value? (digit (a.toNat % 4 * 16 + b.toNat / 16)) = _ := value?_digit (by omega)
    have hz : value? (digit (b.toNat % 16 * 4)) = _ := value?_digit (by omega)
    have h₁ : UInt8.ofNat (a.toNat / 4 * 4 + (a.toNat % 4 * 16 + b.toNat / 16) / 16) = a :=
      ofNat_eq (by omega)
    have h₂ : UInt8.ofNat ((a.toNat % 4 * 16 + b.toNat / 16) % 16 * 16 +
        b.toNat % 16 * 4 / 4) = b := ofNat_eq (by omega)
    have hpad : b.toNat % 16 * 4 % 4 = 0 := by omega
    rw [decodeDigits.eq_3 _ _ _ (digit_ne_padding (by omega))]
    simp only [hx, hy, hz, h₁, h₂, hpad, Option.bind_eq_bind, Option.bind_some, if_true]
  | case4 a b c rest ih =>
    have ha := a.toNat_lt
    have hb := b.toNat_lt
    have hc := c.toNat_lt
    have hx : value? (digit (a.toNat / 4)) = _ := value?_digit (by omega)
    have hy : value? (digit (a.toNat % 4 * 16 + b.toNat / 16)) = _ := value?_digit (by omega)
    have hz : value? (digit (b.toNat % 16 * 4 + c.toNat / 64)) = _ := value?_digit (by omega)
    have hw : value? (digit (c.toNat % 64)) = _ := value?_digit (by omega)
    have h₁ : UInt8.ofNat (a.toNat / 4 * 4 + (a.toNat % 4 * 16 + b.toNat / 16) / 16) = a :=
      ofNat_eq (by omega)
    have h₂ : UInt8.ofNat ((a.toNat % 4 * 16 + b.toNat / 16) % 16 * 16 +
        (b.toNat % 16 * 4 + c.toNat / 64) / 4) = b := ofNat_eq (by omega)
    have h₃ : UInt8.ofNat ((b.toNat % 16 * 4 + c.toNat / 64) % 4 * 64 + c.toNat % 64) = c :=
      ofNat_eq (by omega)
    have hd : digit (c.toNat % 64) ≠ '=' := digit_ne_padding (by omega)
    rw [decodeDigits.eq_4 _ _ _ _ _ (fun _ h _ => hd h) (fun h _ => hd h)]
    simp only [hx, hy, hz, hw, h₁, h₂, h₃, ih, Option.bind_eq_bind, Option.bind_some]

theorem decode?_encode (bytes : List UInt8) : decode? (encode bytes) = some bytes := by
  rw [decode?, encode, String.toList_ofList, decodeDigits_encodeBytes]

end Workbench.Text.Base64
