import IdlBindings.Text.Utf8
import Mathlib.Data.List.Basic

/-!
Text survives its encoding. The bytes of a character are read as that character, by the
rule for their number and by none before it, and reading goes on after them.
-/

namespace IdlBindings.Text

theorem toNat_toUInt8 {n : Nat} (h : n < 256) : n.toUInt8.toNat = n :=
  UInt8.toNat_ofNat_of_lt h

theorem guard_eq_some {p : Prop} [Decidable p] (h : p) : (guard p : Option Unit) = some () :=
  if_pos h

theorem continuation?_toUInt8 {n : Nat} (h : n < 64) :
    continuation? (0x80 + n).toUInt8 = some n := by
  rw [continuation?, toNat_toUInt8 (by omega), if_pos (by omega), Nat.add_sub_cancel_left]

theorem twoByteChar?_eq_none {a : UInt8} (h : 0xe0 ≤ a.toNat) (b : UInt8) :
    twoByteChar? a b = none := by
  rw [twoByteChar?, guard, if_neg (by omega)]
  rfl

theorem threeByteChar?_eq_none {a : UInt8} (h : 0xf0 ≤ a.toNat) (b c : UInt8) :
    threeByteChar? a b c = none := by
  rw [threeByteChar?, guard, if_neg (by omega)]
  rfl

theorem twoByteChar?_toUInt8 {n : Nat} (hlow : 0x80 ≤ n) (hhigh : n < 0x800) :
    twoByteChar? (0xc0 + n / 64).toUInt8 (0x80 + n % 64).toUInt8 = some (Char.ofNat n) := by
  have hlead : (0xc0 + n / 64).toUInt8.toNat = 0xc0 + n / 64 := toNat_toUInt8 (by omega)
  have hsum : ((0xc0 + n / 64).toUInt8.toNat - 0xc0) * 64 + n % 64 = n := by
    rw [hlead]
    omega
  refine Option.bind_eq_some_iff.mpr ⟨(), guard_eq_some (by omega), ?_⟩
  refine Option.bind_eq_some_iff.mpr ⟨_, continuation?_toUInt8 (by omega), ?_⟩
  refine Option.bind_eq_some_iff.mpr ⟨(), guard_eq_some (by omega), ?_⟩
  exact congrArg (some ∘ Char.ofNat) hsum

theorem threeByteChar?_toUInt8 {n : Nat} (hlow : 0x800 ≤ n) (hhigh : n < 0x10000)
    (hsurrogate : ¬ (0xd800 ≤ n ∧ n < 0xe000)) :
    threeByteChar? (0xe0 + n / 4096).toUInt8 (0x80 + n / 64 % 64).toUInt8
      (0x80 + n % 64).toUInt8 = some (Char.ofNat n) := by
  have hlead : (0xe0 + n / 4096).toUInt8.toNat = 0xe0 + n / 4096 := toNat_toUInt8 (by omega)
  have hsum : ((0xe0 + n / 4096).toUInt8.toNat - 0xe0) * 4096 + n / 64 % 64 * 64 + n % 64 = n := by
    rw [hlead]
    omega
  refine Option.bind_eq_some_iff.mpr ⟨(), guard_eq_some (by omega), ?_⟩
  refine Option.bind_eq_some_iff.mpr ⟨_, continuation?_toUInt8 (by omega), ?_⟩
  refine Option.bind_eq_some_iff.mpr ⟨_, continuation?_toUInt8 (by omega), ?_⟩
  refine Option.bind_eq_some_iff.mpr ⟨(), guard_eq_some (by omega), ?_⟩
  exact congrArg (some ∘ Char.ofNat) hsum

theorem fourByteChar?_toUInt8 {n : Nat} (hlow : 0x10000 ≤ n) (hhigh : n < 0x110000) :
    fourByteChar? (0xf0 + n / 262144).toUInt8 (0x80 + n / 4096 % 64).toUInt8
      (0x80 + n / 64 % 64).toUInt8 (0x80 + n % 64).toUInt8 = some (Char.ofNat n) := by
  have hlead : (0xf0 + n / 262144).toUInt8.toNat = 0xf0 + n / 262144 := toNat_toUInt8 (by omega)
  have hsum : ((0xf0 + n / 262144).toUInt8.toNat - 0xf0) * 262144 + n / 4096 % 64 * 4096 +
      n / 64 % 64 * 64 + n % 64 = n := by
    rw [hlead]
    omega
  refine Option.bind_eq_some_iff.mpr ⟨(), guard_eq_some (by omega), ?_⟩
  refine Option.bind_eq_some_iff.mpr ⟨_, continuation?_toUInt8 (by omega), ?_⟩
  refine Option.bind_eq_some_iff.mpr ⟨_, continuation?_toUInt8 (by omega), ?_⟩
  refine Option.bind_eq_some_iff.mpr ⟨_, continuation?_toUInt8 (by omega), ?_⟩
  refine Option.bind_eq_some_iff.mpr ⟨(), guard_eq_some (by omega), ?_⟩
  exact congrArg (some ∘ Char.ofNat) hsum

theorem toNat_char_range (c : Char) :
    c.toNat < 0x110000 ∧ ¬ (0xd800 ≤ c.toNat ∧ c.toNat < 0xe000) := by
  have hvalid : c.toNat < 0xd800 ∨ 0xdfff < c.toNat ∧ c.toNat < 0x110000 := c.valid
  omega

/-- The bytes of a character, by their number. -/
theorem encodeChar_cases (c : Char) :
    (c.toNat < 0x80 ∧ encodeChar c = [c.toNat.toUInt8]) ∨
    ((0x80 ≤ c.toNat ∧ c.toNat < 0x800) ∧ encodeChar c =
      [(0xc0 + c.toNat / 64).toUInt8, (0x80 + c.toNat % 64).toUInt8]) ∨
    ((0x800 ≤ c.toNat ∧ c.toNat < 0x10000) ∧ encodeChar c =
      [(0xe0 + c.toNat / 4096).toUInt8, (0x80 + c.toNat / 64 % 64).toUInt8,
        (0x80 + c.toNat % 64).toUInt8]) ∨
    ((0x10000 ≤ c.toNat ∧ c.toNat < 0x110000) ∧ encodeChar c =
      [(0xf0 + c.toNat / 262144).toUInt8, (0x80 + c.toNat / 4096 % 64).toUInt8,
        (0x80 + c.toNat / 64 % 64).toUInt8, (0x80 + c.toNat % 64).toUInt8]) := by
  have hlimit := (toNat_char_range c).1
  unfold encodeChar
  simp only
  split
  · exact Or.inl ⟨by assumption, rfl⟩
  · split
    · exact Or.inr (Or.inl ⟨by omega, rfl⟩)
    · split
      · exact Or.inr (Or.inr (Or.inl ⟨by omega, rfl⟩))
      · exact Or.inr (Or.inr (Or.inr ⟨by omega, rfl⟩))

theorem encodeChar_ne_nil (c : Char) : encodeChar c ≠ [] := by
  rcases encodeChar_cases c with ⟨-, hbytes⟩ | ⟨-, hbytes⟩ | ⟨-, hbytes⟩ | ⟨-, hbytes⟩
  all_goals
    rw [hbytes]
    exact List.cons_ne_nil _ _

section Decode

variable {a b c d : UInt8} {char : Char} (rest : List UInt8)

theorem decode_one (h : a.toNat < 0x80) :
    decode (a :: rest) = (Char.ofNat a.toNat :: (decode rest).1, (decode rest).2) := by
  rw [decode.eq_def]
  simp only [h, if_true]

theorem decode_two (hlead : ¬ a.toNat < 0x80) (h : twoByteChar? a b = some char) :
    decode (a :: b :: rest) = (char :: (decode rest).1, (decode rest).2) := by
  rw [decode.eq_def]
  simp only [hlead, if_false, h]

theorem decode_three (hlead : ¬ a.toNat < 0x80) (htwo : twoByteChar? a b = none)
    (h : threeByteChar? a b c = some char) :
    decode (a :: b :: c :: rest) = (char :: (decode rest).1, (decode rest).2) := by
  rw [decode.eq_def]
  simp only [hlead, if_false, htwo, h]

theorem decode_four (hlead : ¬ a.toNat < 0x80) (htwo : twoByteChar? a b = none)
    (hthree : threeByteChar? a b c = none) (h : fourByteChar? a b c d = some char) :
    decode (a :: b :: c :: d :: rest) = (char :: (decode rest).1, (decode rest).2) := by
  rw [decode.eq_def]
  simp only [hlead, if_false, htwo, hthree, h]

end Decode

/-- Reading goes on after the bytes of a character. -/
theorem decode_encodeChar_append (c : Char) (rest : List UInt8) :
    decode (encodeChar c ++ rest) = (c :: (decode rest).1, (decode rest).2) := by
  obtain ⟨hlimit, hsurrogate⟩ := toNat_char_range c
  have hchar : Char.ofNat c.toNat = c := Char.ofNat_toNat c
  unfold encodeChar
  generalize c.toNat = n at *
  subst hchar
  simp only
  split
  · rename_i hone
    have hlead : n.toUInt8.toNat = n := toNat_toUInt8 (by omega)
    have hread := decode_one (a := n.toUInt8) rest (by omega)
    rw [hlead] at hread
    rw [List.singleton_append]
    exact hread
  · rename_i hone
    split
    · rename_i htwo
      have hlead : (0xc0 + n / 64).toUInt8.toNat = 0xc0 + n / 64 := toNat_toUInt8 (by omega)
      rw [List.cons_append, List.singleton_append]
      exact decode_two rest (by omega) (twoByteChar?_toUInt8 (by omega) htwo)
    · rename_i htwo
      split
      · rename_i hthree
        have hlead : (0xe0 + n / 4096).toUInt8.toNat = 0xe0 + n / 4096 := toNat_toUInt8 (by omega)
        rw [List.cons_append, List.cons_append, List.singleton_append]
        exact decode_three rest (by omega) (twoByteChar?_eq_none (by omega) _)
          (threeByteChar?_toUInt8 (by omega) hthree hsurrogate)
      · rename_i hthree
        have hlead : (0xf0 + n / 262144).toUInt8.toNat = 0xf0 + n / 262144 :=
          toNat_toUInt8 (by omega)
        rw [List.cons_append, List.cons_append, List.cons_append, List.singleton_append]
        exact decode_four rest (by omega) (twoByteChar?_eq_none (by omega) _)
          (threeByteChar?_eq_none (by omega) _ _) (fourByteChar?_toUInt8 (by omega) hlimit)

theorem decode_flatMap_encodeChar (chars : List Char) :
    decode (chars.flatMap encodeChar) = (chars, []) := by
  induction chars with
  | nil => rfl
  | cons c rest ih => rw [List.flatMap_cons, decode_encodeChar_append, ih]

theorem ofUtf8_encode (text : String) : ofUtf8 (encode text) = .ok text := by
  rw [ofUtf8, encode, decode_flatMap_encodeChar]
  exact congrArg Except.ok String.ofList_toList

theorem encode_injective : Function.Injective encode := by
  intro text other h
  have hread : (.ok text : Except Nat String) = .ok other := by
    rw [← ofUtf8_encode text, h, ofUtf8_encode]
  exact Except.ok.inj hread

end IdlBindings.Text
