import IdlBindings.Native.Strings
import IdlBindings.Proofs.Sequence
import IdlBindings.Proofs.Text.ValidBytes
import Mathlib.Data.List.TakeWhile

/-!
Strings on their way across the boundary and back. A NUL byte in the encoding of a text is
a NUL character of it, so a cut at the first NUL byte never falls into a character: what
is read back from the bytes of a text is the text up to its first NUL. All readers of a
buffer decode the same bytes, and of these they accept all or none.
-/

namespace IdlBindings.Native

open Text

theorem zero_eq_toUInt8_iff {n : Nat} (h : n < 256) : 0 = n.toUInt8 ↔ n = 0 := by
  rw [← UInt8.toNat_inj, toNat_toUInt8 h, UInt8.toNat_zero, eq_comm]

/-- Only the NUL character has a NUL byte. -/
theorem eq_nul_of_nul_mem_encodeChar {c : Char} (h : 0 ∈ encodeChar c) : c = '\x00' := by
  have hnumber : c.toNat = 0 := by
    rcases encodeChar_cases c with ⟨_, hbytes⟩ | ⟨_, hbytes⟩ | ⟨_, hbytes⟩ | ⟨_, hbytes⟩
    all_goals
      rw [hbytes] at h
      simp (disch := omega) only [List.mem_cons, List.not_mem_nil, or_false,
        zero_eq_toUInt8_iff] at h
      omega
  rw [← Char.ofNat_toNat c, hnumber]

section BeforeNul

theorem bne_nul {bytes : List UInt8} (h : 0 ∉ bytes) : ∀ byte ∈ bytes, (byte != 0) = true := by
  intro byte hbyte
  rw [bne_iff_ne]
  rintro rfl
  exact h hbyte

theorem beforeNul_of_nul_not_mem {bytes : List UInt8} (h : 0 ∉ bytes) : beforeNul bytes = bytes :=
  List.takeWhile_eq_self_iff.mpr (bne_nul h)

theorem beforeNul_append {bytes : List UInt8} (h : 0 ∉ bytes) (rest : List UInt8) :
    beforeNul (bytes ++ rest) = bytes ++ beforeNul rest :=
  List.takeWhile_append_of_pos (bne_nul h)

/-- A buffer for the first bytes holds the first bytes of the buffer for all. -/
theorem beforeNul_take (bytes : List UInt8) (length : Nat) :
    beforeNul (bytes.take length) = (beforeNul bytes).take length :=
  List.take_takeWhile.symm

theorem beforeNul_memory (s : NativeString) : beforeNul s.memory = s.bytes := by
  rw [NativeString.memory, beforeNul_append s.nul_not_mem]
  exact List.append_nil _

/-- The characters before the first NUL. -/
def untilNul (text : String) : String :=
  String.ofList (text.toList.takeWhile (· != '\x00'))

theorem beforeNul_flatMap_encodeChar (chars : List Char) :
    beforeNul (chars.flatMap encodeChar) =
      (chars.takeWhile (· != '\x00')).flatMap encodeChar := by
  induction chars with
  | nil => rfl
  | cons c chars ih =>
      by_cases hnul : c = '\x00'
      · subst hnul
        rfl
      · have hkept : (c :: chars).takeWhile (· != '\x00') = c :: chars.takeWhile (· != '\x00') :=
          List.takeWhile_cons_of_pos (bne_iff_ne.mpr hnul)
        rw [hkept, List.flatMap_cons, List.flatMap_cons, ← ih]
        exact beforeNul_append (mt eq_nul_of_nul_mem_encodeChar hnul) _

/-- The cut at the first NUL byte is the cut at the first NUL character. -/
theorem beforeNul_encode (text : String) : beforeNul (encode text) = encode (untilNul text) := by
  rw [untilNul, encode_ofList, encode, beforeNul_flatMap_encodeChar]

end BeforeNul

theorem nulPosition?_eq_some_iff {bytes : List UInt8} {position : Nat} :
    nulPosition? bytes = some position ↔ IsLeast {i | bytes[i]? = some 0} position := by
  rw [nulPosition?, List.findIdx?_eq_some_iff_getElem]
  constructor
  · rintro ⟨hposition, hnul, hearlier⟩
    refine ⟨?_, fun i hi => ?_⟩
    · exact List.getElem?_eq_some_iff.mpr ⟨hposition, eq_of_beq hnul⟩
    · obtain ⟨_, hbyte⟩ := List.getElem?_eq_some_iff.mp hi
      by_contra hless
      exact hearlier i (Nat.lt_of_not_le hless) (beq_of_eq hbyte)
  · rintro ⟨hnul, hleast⟩
    obtain ⟨hposition, hbyte⟩ := List.getElem?_eq_some_iff.mp hnul
    refine ⟨hposition, beq_of_eq hbyte, fun i hi hearlier => ?_⟩
    have hfound : bytes[i]? = some 0 :=
      List.getElem?_eq_some_iff.mpr ⟨Nat.lt_trans hi hposition, eq_of_beq hearlier⟩
    exact absurd (hleast hfound) (Nat.not_le_of_lt hi)

theorem pack_eq_error_iff {text : String} {position : Nat} :
    pack text = .error (.interiorNul position) ↔ nulPosition? (encode text) = some position := by
  unfold pack
  split
  · rename_i found hfound
    rw [hfound, Except.error.injEq, BoundaryFault.interiorNul.injEq, Option.some.injEq]
  · rename_i hnone
    exact ⟨fun h => (nomatch h), fun h => absurd (hnone.symm.trans h) (Option.some_ne_none _).symm⟩

theorem exists_pack_of_nul_not_mem {text : String} (h : 0 ∉ encode text) :
    ∃ native, pack text = .ok native ∧ native.bytes = encode text := by
  unfold pack
  split
  · rename_i found hfound
    have hnul := (nulPosition?_eq_some_iff.mp hfound).1
    exact absurd (List.mem_of_getElem? hnul) h
  · exact ⟨_, rfl, rfl⟩

theorem decodeBytes_eq_mapError (bytes : List UInt8) :
    decodeBytes bytes = (ofUtf8 bytes).mapError .invalidUtf8 := by
  rw [decodeBytes]
  cases ofUtf8 bytes with
  | ok text => rfl
  | error validUpTo => rfl

theorem decodeBytes_eq_ok_iff {bytes : List UInt8} {text : String} :
    decodeBytes bytes = .ok text ↔ encode text = bytes := by
  rw [decodeBytes_eq_mapError, Sequence.mapError_eq_ok_iff, ofUtf8_eq_ok_iff]

theorem takeString_allocate (bytes : List UInt8) :
    takeString (some (.allocate bytes)) = decodeBytes (beforeNul bytes) := rfl

theorem takeString_allocate_encode (text : String) :
    takeString (some (.allocate (encode text))) = .ok (untilNul text) := by
  rw [takeString_allocate, decodeBytes_eq_ok_iff, beforeNul_encode]

/-- A text at the front of another that has no NUL, and is longer than any other such. -/
structure LongestWithoutNul (text front : String) : Prop where
  starts : front.toList <+: text.toList
  noNul : '\x00' ∉ front.toList
  longest : ∀ other : String, other.toList <+: text.toList → '\x00' ∉ other.toList →
    other.toList <+: front.toList

theorem longestWithoutNul_untilNul (text : String) : LongestWithoutNul text (untilNul text) := by
  have hchars : (untilNul text).toList = text.toList.takeWhile (· != '\x00') :=
    String.toList_ofList
  refine ⟨?_, ?_, fun other hother hnul => ?_⟩
  · rw [hchars]
    exact List.takeWhile_prefix _
  · rw [hchars]
    intro hmem
    simpa using List.mem_takeWhile_imp hmem
  · obtain ⟨rest, hrest⟩ := hother
    have hkept : ∀ c ∈ other.toList, (c != '\x00') = true := by
      intro c hc
      rw [bne_iff_ne]
      rintro rfl
      exact hnul hc
    rw [hchars, ← hrest, List.takeWhile_append_of_pos hkept]
    exact List.prefix_append _ _

/-- A text is handed over unless it has a NUL, whose first byte is then reported, and is
read back as it was. The bytes of any text are read back as its longest part at the front
without a NUL. -/
theorem strings_cross_unchanged (text : String) :
    (∀ position, pack text = .error (.interiorNul position) ↔
      IsLeast {i | text.toUTF8.data.toList[i]? = some 0} position) ∧
    (0 ∉ text.toUTF8.data.toList → ∃ native, pack text = .ok native ∧
      native.bytes = text.toUTF8.data.toList ∧
      takeString (some (.allocate native.bytes)) = .ok text) ∧
    ∃ front, takeString (some (.allocate text.toUTF8.data.toList)) = .ok front ∧
      LongestWithoutNul text front := by
  rw [toList_toUTF8]
  refine ⟨fun position => ?_, fun hnul => ?_, ?_⟩
  · rw [pack_eq_error_iff, nulPosition?_eq_some_iff]
  · obtain ⟨native, hpack, hbytes⟩ := exists_pack_of_nul_not_mem hnul
    refine ⟨native, hpack, hbytes, ?_⟩
    rw [takeString_allocate, decodeBytes_eq_ok_iff, beforeNul_of_nul_not_mem native.nul_not_mem,
      hbytes]
  · exact ⟨untilNul text, takeString_allocate_encode text, longestWithoutNul_untilNul text⟩

/-- What a reader has to return for some bytes: the text of which they are the encoding,
or else the length of the longest part at the front that is valid. -/
structure Reads (bytes : List UInt8) (result : Except BoundaryFault String) : Prop where
  ok_iff : ∀ text : String, result = .ok text ↔ bytes = text.toUTF8.data.toList
  error_iff : ∀ fault, result = .error fault ↔ ¬ bytes.toByteArray.IsValidUTF8 ∧
    ∃ validUpTo, fault = .invalidUtf8 validUpTo ∧ IsGreatest (validLengths bytes) validUpTo

theorem reads_decodeBytes (bytes : List UInt8) : Reads bytes (decodeBytes bytes) := by
  constructor
  · intro text
    rw [decodeBytes_eq_ok_iff, toList_toUTF8, eq_comm]
  · intro fault
    rw [decodeBytes_eq_mapError, Sequence.mapError_eq_error_iff]
    constructor
    · rintro ⟨validUpTo, hread, rfl⟩
      obtain ⟨hinvalid, hgreatest⟩ := ofUtf8_eq_error_iff.mp hread
      exact ⟨hinvalid, validUpTo, rfl, hgreatest⟩
    · rintro ⟨hinvalid, validUpTo, rfl, hgreatest⟩
      exact ⟨validUpTo, ofUtf8_eq_error_iff.mpr ⟨hinvalid, hgreatest⟩, rfl⟩

/-- All readers of a buffer agree. One that is given a length reads what a buffer for so
many bytes holds, which is everything unless the length is smaller. What is read is the
text of these bytes, all of them, or a fault that tells how many at the front are valid. -/
theorem readers_agree (bytes : List UInt8) :
    copyString (some (NativeString.allocate bytes).memory) =
      takeString (some (.allocate bytes)) ∧
    Reads (beforeNul bytes) (takeString (some (.allocate bytes))) ∧
    ∀ length, takeBuffer length (some (.allocate bytes)) =
        takeString (some (.allocate (bytes.take length))) ∧
      Reads (beforeNul (bytes.take length)) (takeBuffer length (some (.allocate bytes))) ∧
      ((beforeNul bytes).length ≤ length →
        takeBuffer length (some (.allocate bytes)) = takeString (some (.allocate bytes))) := by
  refine ⟨?_, reads_decodeBytes _, fun length => ?_⟩
  · rw [copyString, beforeNul_memory]
    rfl
  · have hfirst : takeBuffer length (some (.allocate bytes)) =
        takeString (some (.allocate (bytes.take length))) := by
      rw [takeString_allocate, beforeNul_take]
      rfl
    refine ⟨hfirst, hfirst ▸ reads_decodeBytes _, fun hall => ?_⟩
    rw [hfirst, takeString_allocate, beforeNul_take, List.take_of_length_le hall]
    rfl

end IdlBindings.Native
