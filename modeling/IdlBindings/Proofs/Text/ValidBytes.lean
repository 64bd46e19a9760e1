import IdlBindings.Proofs.Text.Utf8
import Mathlib.Data.Option.Basic
import Mathlib.Order.Bounds.Basic

/-!
Which bytes are text. A rule that reads a character from bytes reads it from exactly the
bytes that encode it, so what was read and what is left make up all bytes. Bytes are read
as a text exactly when they are its encoding, which is the one that strings have. Where
they are not, the position that is reported is the length of the longest part at the
front that is text: a text at the front is read whole, whatever follows it.
-/

namespace IdlBindings.Text

theorem toNat_charOfNat {n : Nat} (h : n.isValidChar) : (Char.ofNat n).toNat = n := by
  rw [Char.ofNat, dif_pos h]
  rfl

theorem toUInt8_of_toNat_eq {a : UInt8} {n : Nat} (h : a.toNat = n) : n.toUInt8 = a := by
  rw [← h]
  exact UInt8.ofNat_toNat

theorem continuation?_eq_some {byte : UInt8} {bits : Nat} (h : continuation? byte = some bits) :
    bits < 64 ∧ byte.toNat = 0x80 + bits := by
  rw [continuation?] at h
  split at h
  · have hbits := Option.some.inj h
    omega
  · cases h

section Inverse

variable {a b c d : UInt8} {char : Char}

theorem encodeChar_of_one (h : a.toNat < 0x80) : encodeChar (Char.ofNat a.toNat) = [a] := by
  unfold encodeChar
  simp only [toNat_charOfNat (.inl (show a.toNat < 0xd800 by omega))]
  rw [if_pos h, toUInt8_of_toNat_eq rfl]

theorem encodeChar_of_twoByteChar? (h : twoByteChar? a b = some char) :
    encodeChar char = [a, b] := by
  obtain ⟨_, hlead, h⟩ := Option.bind_eq_some_iff.mp h
  obtain ⟨low, hlow, h⟩ := Option.bind_eq_some_iff.mp h
  obtain ⟨_, hrange, h⟩ := Option.bind_eq_some_iff.mp h
  rw [Option.guard_eq_some'] at hlead hrange
  obtain ⟨_, hb⟩ := continuation?_eq_some hlow
  have hnumber : char.toNat = (a.toNat - 0xc0) * 64 + low := by
    rw [← Option.some.inj h]
    exact toNat_charOfNat (by omega)
  unfold encodeChar
  simp only [hnumber]
  rw [if_neg (by omega), if_pos (by omega), toUInt8_of_toNat_eq (a := a) (by omega),
    toUInt8_of_toNat_eq (a := b) (by omega)]

theorem encodeChar_of_threeByteChar? (h : threeByteChar? a b c = some char) :
    encodeChar char = [a, b, c] := by
  obtain ⟨_, hlead, h⟩ := Option.bind_eq_some_iff.mp h
  obtain ⟨middle, hmiddle, h⟩ := Option.bind_eq_some_iff.mp h
  obtain ⟨low, hlow, h⟩ := Option.bind_eq_some_iff.mp h
  obtain ⟨_, hrange, h⟩ := Option.bind_eq_some_iff.mp h
  rw [Option.guard_eq_some'] at hlead hrange
  obtain ⟨_, hb⟩ := continuation?_eq_some hmiddle
  obtain ⟨_, hc⟩ := continuation?_eq_some hlow
  have hnumber : char.toNat = (a.toNat - 0xe0) * 4096 + middle * 64 + low := by
    rw [← Option.some.inj h]
    exact toNat_charOfNat (by omega)
  unfold encodeChar
  simp only [hnumber]
  rw [if_neg (by omega), if_neg (by omega), if_pos (by omega),
    toUInt8_of_toNat_eq (a := a) (by omega), toUInt8_of_toNat_eq (a := b) (by omega),
    toUInt8_of_toNat_eq (a := c) (by omega)]

theorem encodeChar_of_fourByteChar? (h : fourByteChar? a b c d = some char) :
    encodeChar char = [a, b, c, d] := by
  obtain ⟨_, hlead, h⟩ := Option.bind_eq_some_iff.mp h
  obtain ⟨upper, hupper, h⟩ := Option.bind_eq_some_iff.mp h
  obtain ⟨middle, hmiddle, h⟩ := Option.bind_eq_some_iff.mp h
  obtain ⟨low, hlow, h⟩ := Option.bind_eq_some_iff.mp h
  obtain ⟨_, hrange, h⟩ := Option.bind_eq_some_iff.mp h
  rw [Option.guard_eq_some'] at hlead hrange
  obtain ⟨_, hb⟩ := continuation?_eq_some hupper
  obtain ⟨_, hc⟩ := continuation?_eq_some hmiddle
  obtain ⟨_, hd⟩ := continuation?_eq_some hlow
  have hnumber : char.toNat =
      (a.toNat - 0xf0) * 262144 + upper * 4096 + middle * 64 + low := by
    rw [← Option.some.inj h]
    exact toNat_charOfNat (by omega)
  unfold encodeChar
  simp only [hnumber]
  rw [if_neg (by omega), if_neg (by omega), if_neg (by omega),
    toUInt8_of_toNat_eq (a := a) (by omega), toUInt8_of_toNat_eq (a := b) (by omega),
    toUInt8_of_toNat_eq (a := c) (by omega), toUInt8_of_toNat_eq (a := d) (by omega)]

end Inverse

/-- The characters that were read and the bytes that are left make up all bytes. -/
theorem encode_decode_append (bytes : List UInt8) :
    (decode bytes).1.flatMap encodeChar ++ (decode bytes).2 = bytes := by
  fun_induction decode bytes with
  | case1 => rfl
  | case2 a rest hone chars left hrest ih =>
      rw [hrest] at ih
      rw [List.flatMap_cons, encodeChar_of_one hone, List.append_assoc, ih]
      rfl
  | case4 a hone b rest char htwo chars left hrest ih =>
      rw [hrest] at ih
      rw [List.flatMap_cons, encodeChar_of_twoByteChar? htwo, List.append_assoc, ih]
      rfl
  | case6 a hone b htwo c rest char hthree chars left hrest ih =>
      rw [hrest] at ih
      rw [List.flatMap_cons, encodeChar_of_threeByteChar? hthree, List.append_assoc, ih]
      rfl
  | case8 a hone b htwo c hthree d rest char hfour chars left hrest ih =>
      rw [hrest] at ih
      rw [List.flatMap_cons, encodeChar_of_fourByteChar? hfour, List.append_assoc, ih]
      rfl
  -- Nothing was read at the front: all bytes are left.
  | case3 | case5 | case7 | case9 => rfl

theorem length_left_le (bytes : List UInt8) : (decode bytes).2.length ≤ bytes.length := by
  have hall := congrArg List.length (encode_decode_append bytes)
  rw [List.length_append] at hall
  omega

/-- Characters at the front are read whole, and reading goes on after them. -/
theorem decode_flatMap_encodeChar_append (chars : List Char) (rest : List UInt8) :
    decode (chars.flatMap encodeChar ++ rest) = (chars ++ (decode rest).1, (decode rest).2) := by
  induction chars with
  | nil => rfl
  | cons c chars ih =>
      rw [List.flatMap_cons, List.append_assoc, decode_encodeChar_append, ih]
      rfl

theorem encodeChar_eq_utf8EncodeChar (c : Char) : encodeChar c = String.utf8EncodeChar c := by
  have hnumber : c.val.toNat = c.toNat := rfl
  unfold String.utf8EncodeChar
  simp only [hnumber]
  rcases encodeChar_cases c with ⟨h, hbytes⟩ | ⟨h, hbytes⟩ | ⟨h, hbytes⟩ | ⟨h, hbytes⟩
  · rw [hbytes, if_pos (by omega)]
  · rw [hbytes, if_neg (by omega), if_pos (by omega),
      Nat.mod_eq_of_lt (a := c.toNat / 64) (by omega)]
    simp only [Nat.add_comm]
  · rw [hbytes, if_neg (by omega), if_neg (by omega), if_pos (by omega),
      Nat.mod_eq_of_lt (a := c.toNat / 4096) (by omega)]
    simp only [Nat.add_comm]
  · rw [hbytes, if_neg (by omega), if_neg (by omega), if_neg (by omega),
      Nat.mod_eq_of_lt (a := c.toNat / 262144) (by omega)]
    simp only [Nat.add_comm]

/-- The bytes of a text are those that the string has. -/
theorem toByteArray_encode (text : String) : (encode text).toByteArray = text.toUTF8 := by
  have hchars : encodeChar = String.utf8EncodeChar := funext encodeChar_eq_utf8EncodeChar
  rw [String.toUTF8_eq_toByteArray, ← String.utf8Encode_toList, List.utf8Encode, encode, hchars]

theorem toList_toUTF8 (text : String) : text.toUTF8.data.toList = encode text := by
  rw [← toByteArray_encode, List.data_toByteArray]

theorem isValidUTF8_iff {bytes : List UInt8} :
    bytes.toByteArray.IsValidUTF8 ↔ ∃ text, encode text = bytes := by
  constructor
  · intro h
    refine ⟨⟨bytes.toByteArray, h⟩, ?_⟩
    rw [← List.toByteArray_inj, toByteArray_encode]
    rfl
  · rintro ⟨text, rfl⟩
    rw [toByteArray_encode]
    exact text.isValidUTF8

theorem encode_ofList (chars : List Char) :
    encode (String.ofList chars) = chars.flatMap encodeChar := by
  rw [encode, String.toList_ofList]

theorem ofUtf8_eq_ok_iff {bytes : List UInt8} {text : String} :
    ofUtf8 bytes = .ok text ↔ encode text = bytes := by
  constructor
  · intro h
    have hall := encode_decode_append bytes
    unfold ofUtf8 at h
    split at h
    · rename_i chars hdecode
      rw [hdecode, List.append_nil] at hall
      rw [← Except.ok.inj h, encode_ofList, hall]
    · cases h
  · rintro rfl
    exact ofUtf8_encode text

/-- The lengths of the parts at the front of bytes that are valid. -/
def validLengths (bytes : List UInt8) : Set Nat :=
  {n | n ≤ bytes.length ∧ (bytes.take n).toByteArray.IsValidUTF8}

theorem validUpTo_eq {bytes : List UInt8} {validUpTo : Nat} (h : ofUtf8 bytes = .error validUpTo) :
    validUpTo = ((decode bytes).1.flatMap encodeChar).length := by
  have hall := congrArg List.length (encode_decode_append bytes)
  rw [List.length_append] at hall
  unfold ofUtf8 at h
  split at h
  · cases h
  · rename_i chars left _ hdecode
    have hend := Except.error.inj h
    rw [hdecode] at hall ⊢
    simp only at hall ⊢
    omega

theorem isGreatest_validUpTo {bytes : List UInt8} {validUpTo : Nat}
    (h : ofUtf8 bytes = .error validUpTo) : IsGreatest (validLengths bytes) validUpTo := by
  have hall := encode_decode_append bytes
  have hlength := congrArg List.length hall
  rw [List.length_append, ← validUpTo_eq h] at hlength
  constructor
  · have hfront : bytes.take validUpTo = (decode bytes).1.flatMap encodeChar := by
      nth_rewrite 1 [← hall]
      rw [validUpTo_eq h, List.take_left]
    refine ⟨by omega, isValidUTF8_iff.mpr ⟨String.ofList (decode bytes).1, ?_⟩⟩
    rw [encode_ofList, hfront]
  · rintro n ⟨hn, hvalid⟩
    obtain ⟨text, htext⟩ := isValidUTF8_iff.mp hvalid
    have hsplit : text.toList.flatMap encodeChar ++ bytes.drop n = bytes := by
      rw [← encode, htext, List.take_append_drop]
    -- What is left after the text is left after it is read.
    have hleft : (decode bytes).2 = (decode (bytes.drop n)).2 := by
      rw [← hsplit, decode_flatMap_encodeChar_append, hsplit]
    have hrest := length_left_le (bytes.drop n)
    rw [← hleft, List.length_drop] at hrest
    omega

theorem ofUtf8_eq_error_iff {bytes : List UInt8} {validUpTo : Nat} :
    ofUtf8 bytes = .error validUpTo ↔
      ¬ bytes.toByteArray.IsValidUTF8 ∧ IsGreatest (validLengths bytes) validUpTo := by
  constructor
  · intro h
    refine ⟨fun hvalid => ?_, isGreatest_validUpTo h⟩
    obtain ⟨text, htext⟩ := isValidUTF8_iff.mp hvalid
    rw [ofUtf8_eq_ok_iff.mpr htext] at h
    cases h
  · rintro ⟨hinvalid, hgreatest⟩
    cases hread : ofUtf8 bytes with
    | ok text => exact absurd (isValidUTF8_iff.mpr ⟨text, ofUtf8_eq_ok_iff.mp hread⟩) hinvalid
    | error found => rw [(isGreatest_validUpTo hread).unique hgreatest]

end IdlBindings.Text
