import Mathlib.Data.List.Basic

namespace Encoding

/-- A character is a Unicode scalar value; its sequence is what the standard encodes it as. -/
abbrev encode (ch : Char) : List UInt8 :=
  String.utf8EncodeChar ch

theorem encode_ne_nil (ch : Char) : encode ch ≠ [] := by
  unfold encode String.utf8EncodeChar
  dsimp only
  split
  · exact List.cons_ne_nil _ _
  split
  · exact List.cons_ne_nil _ _
  split <;> exact List.cons_ne_nil _ _

section
variable (value : Nat)

theorem exists_char (valid : value.isValidChar) : ∃ ch : Char, ch.val.toNat = value := by
  have small : value < UInt32.size := by
    rcases valid with below | ⟨_, below⟩
    · exact Nat.lt_trans below (by decide)
    · exact Nat.lt_trans below (by decide)
  have kept : (UInt32.ofNat value).toNat = value := by
    rw [UInt32.toNat_ofNat']
    exact Nat.mod_eq_of_lt small
  refine ⟨⟨UInt32.ofNat value, ?_⟩, kept⟩
  rw [UInt32.isValidChar, kept]
  exact valid

end

theorem ofNat_eq_of_mod {value : Nat} (byte : UInt8) (same : value % 256 = byte.toNat) :
    UInt8.ofNat value = byte := by
  rw [← UInt8.toNat_inj, UInt8.toNat_ofNat']
  exact same

section
variable {first second third fourth : UInt8}

theorem encode_eq_one_iff :
    (∃ ch, encode ch = [first]) ↔ first.toNat ≤ 0x7f := by
  constructor
  · rintro ⟨ch, same⟩
    unfold encode String.utf8EncodeChar at same
    dsimp only at same
    split at same
    · rename_i bound
      cases same
      rw [UInt8.toNat_ofNat']
      omega
    split at same
    · cases same
    split at same <;> cases same
  · intro bound
    obtain ⟨ch, value⟩ := exists_char first.toNat (.inl (by omega))
    refine ⟨ch, ?_⟩
    unfold encode String.utf8EncodeChar
    dsimp only
    rw [value, if_pos bound, UInt8.ofNat_toNat]

theorem encode_eq_two_iff :
    (∃ ch, encode ch = [first, second]) ↔
      0xc2 ≤ first.toNat ∧ first.toNat ≤ 0xdf ∧ 0x80 ≤ second.toNat ∧ second.toNat ≤ 0xbf := by
  constructor
  · rintro ⟨ch, same⟩
    unfold encode String.utf8EncodeChar at same
    dsimp only at same
    split at same
    · cases same
    split at same
    · cases same
      simp only [UInt8.toNat_ofNat']
      omega
    split at same <;> cases same
  · rintro ⟨low, high, least, most⟩
    obtain ⟨ch, value⟩ := exists_char ((first.toNat - 0xc0) * 64 + (second.toNat - 0x80))
      (.inl (by omega))
    refine ⟨ch, ?_⟩
    unfold encode String.utf8EncodeChar
    dsimp only
    rw [value, if_neg (by omega), if_pos (by omega)]
    refine List.cons_eq_cons.mpr ⟨ofNat_eq_of_mod first (by omega), ?_⟩
    exact List.cons_eq_cons.mpr ⟨ofNat_eq_of_mod second (by omega), rfl⟩

/-- The second byte keeps overlong forms and surrogates out. -/
theorem encode_eq_three_iff :
    (∃ ch, encode ch = [first, second, third]) ↔
      (0xe0 ≤ first.toNat ∧ first.toNat ≤ 0xef) ∧
        (0x80 ≤ second.toNat ∧ second.toNat ≤ 0xbf) ∧ (0x80 ≤ third.toNat ∧ third.toNat ≤ 0xbf) ∧
        (first.toNat = 0xe0 → 0xa0 ≤ second.toNat) ∧ (first.toNat = 0xed → second.toNat ≤ 0x9f) := by
  constructor
  · rintro ⟨ch, same⟩
    have valid : ch.val.toNat < 0xd800 ∨ 0xdfff < ch.val.toNat ∧ ch.val.toNat < 0x110000 := ch.valid
    unfold encode String.utf8EncodeChar at same
    dsimp only at same
    split at same
    · cases same
    split at same
    · cases same
    split at same
    · cases same
      simp only [UInt8.toNat_ofNat']
      omega
    · cases same
  · rintro ⟨⟨low, high⟩, ⟨least, most⟩, ⟨least', most'⟩, short, surrogate⟩
    obtain ⟨ch, value⟩ := exists_char ((first.toNat - 0xe0) * 4096 + (second.toNat - 0x80) * 64 +
      (third.toNat - 0x80)) (by
        show _ < 0xd800 ∨ 0xdfff < _ ∧ _ < 0x110000
        omega)
    refine ⟨ch, ?_⟩
    unfold encode String.utf8EncodeChar
    dsimp only
    rw [value, if_neg (by omega), if_neg (by omega), if_pos (by omega)]
    refine List.cons_eq_cons.mpr ⟨ofNat_eq_of_mod first (by omega), ?_⟩
    refine List.cons_eq_cons.mpr ⟨ofNat_eq_of_mod second (by omega), ?_⟩
    exact List.cons_eq_cons.mpr ⟨ofNat_eq_of_mod third (by omega), rfl⟩

/-- The second byte keeps overlong forms and values above the last scalar value out. -/
theorem encode_eq_four_iff :
    (∃ ch, encode ch = [first, second, third, fourth]) ↔
      (0xf0 ≤ first.toNat ∧ first.toNat ≤ 0xf4) ∧
        (0x80 ≤ second.toNat ∧ second.toNat ≤ 0xbf) ∧ (0x80 ≤ third.toNat ∧ third.toNat ≤ 0xbf) ∧
        (0x80 ≤ fourth.toNat ∧ fourth.toNat ≤ 0xbf) ∧
        (first.toNat = 0xf0 → 0x90 ≤ second.toNat) ∧ (first.toNat = 0xf4 → second.toNat ≤ 0x8f) := by
  constructor
  · rintro ⟨ch, same⟩
    have valid : ch.val.toNat < 0xd800 ∨ 0xdfff < ch.val.toNat ∧ ch.val.toNat < 0x110000 := ch.valid
    unfold encode String.utf8EncodeChar at same
    dsimp only at same
    split at same
    · cases same
    split at same
    · cases same
    split at same
    · cases same
    · cases same
      simp only [UInt8.toNat_ofNat']
      omega
  · rintro ⟨⟨low, high⟩, ⟨least, most⟩, ⟨least', most'⟩, ⟨least'', most''⟩, short, long⟩
    obtain ⟨ch, value⟩ := exists_char ((first.toNat - 0xf0) * 262144 +
      (second.toNat - 0x80) * 4096 + (third.toNat - 0x80) * 64 + (fourth.toNat - 0x80)) (by
        show _ < 0xd800 ∨ 0xdfff < _ ∧ _ < 0x110000
        omega)
    refine ⟨ch, ?_⟩
    unfold encode String.utf8EncodeChar
    dsimp only
    rw [value, if_neg (by omega), if_neg (by omega), if_neg (by omega)]
    refine List.cons_eq_cons.mpr ⟨ofNat_eq_of_mod first (by omega), ?_⟩
    refine List.cons_eq_cons.mpr ⟨ofNat_eq_of_mod second (by omega), ?_⟩
    refine List.cons_eq_cons.mpr ⟨ofNat_eq_of_mod third (by omega), ?_⟩
    exact List.cons_eq_cons.mpr ⟨ofNat_eq_of_mod fourth (by omega), rfl⟩

end

end Encoding
