import IdlBindings.Proofs.Text.Utf8

/-!
Texts stand in the order of their bytes. Of two different characters the larger has the
larger first byte, or the same and then a larger byte at the first place where they differ;
neither is the start of the other. So it makes no difference whether texts are compared by
characters or by bytes.
-/

namespace IdlBindings.Text

theorem cons_toUInt8_lt_iff {m n : Nat} (hm : m < 256) (hn : n < 256) {rest others : List UInt8} :
    m.toUInt8 :: rest < n.toUInt8 :: others ↔ m < n ∨ m = n ∧ rest < others := by
  rw [List.cons_lt_cons_iff, UInt8.lt_iff_toNat_lt, ← UInt8.toNat_inj, toNat_toUInt8 hm,
    toNat_toUInt8 hn]

/-- The bytes of the smaller of two characters come first, whatever follows them. -/
theorem encodeChar_append_lt {c d : Char} (h : c < d) (rest others : List UInt8) :
    encodeChar c ++ rest < encodeChar d ++ others := by
  have hless : c.toNat < d.toNat := h
  rcases encodeChar_cases c with ⟨hc, hbytes⟩ | ⟨hc, hbytes⟩ | ⟨hc, hbytes⟩ | ⟨hc, hbytes⟩
  all_goals
    rcases encodeChar_cases d with ⟨hd, hlarger⟩ | ⟨hd, hlarger⟩ | ⟨hd, hlarger⟩ | ⟨hd, hlarger⟩
  -- With different numbers of bytes the first bytes decide; with the same number the
  -- bytes are the digits of the two code points, the first with the highest place.
  all_goals
    rw [hbytes, hlarger]
    simp (disch := omega) only [List.cons_append, cons_toUInt8_lt_iff]
    omega

theorem flatMap_encodeChar_lt {chars others : List Char} (h : chars < others) :
    chars.flatMap encodeChar < others.flatMap encodeChar := by
  induction h with
  | @nil c rest =>
      obtain ⟨byte, bytes, hbytes⟩ := List.exists_cons_of_ne_nil (encodeChar_ne_nil c)
      rw [List.flatMap_cons, hbytes]
      exact List.nil_lt_cons _ _
  | rel hless =>
      rw [List.flatMap_cons, List.flatMap_cons]
      exact encodeChar_append_lt hless _ _
  | cons _ ih =>
      rw [List.flatMap_cons, List.flatMap_cons]
      exact List.append_left_lt ih

/-- One text comes before another exactly when its bytes do. -/
theorem encode_lt_encode_iff {text other : String} :
    encode text < encode other ↔ text < other := by
  have hforward {text other : String} (h : text < other) : encode text < encode other :=
    flatMap_encodeChar_lt (String.lt_iff.mp h)
  refine ⟨fun hbytes => ?_, hforward⟩
  by_contra hnot
  rcases eq_or_ne other text with rfl | hne
  · exact List.lt_irrefl _ hbytes
  · exact List.lt_asymm hbytes (hforward (Std.lt_of_le_of_ne (String.not_lt.mp hnot) hne))

end IdlBindings.Text
