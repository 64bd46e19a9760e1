import IdlBindings.Native.Fault
import IdlBindings.Text.Utf8

/-!
Strings on the native side are bytes up to a terminating NUL. A text with a
NUL of its own cannot be handed over, and bytes that are not UTF-8 are refused
rather than cut. A null pointer is `none`.
-/

namespace IdlBindings.Native

/-- The bytes before the first NUL. -/
def beforeNul (bytes : List UInt8) : List UInt8 :=
  bytes.takeWhile (· != 0)

theorem nul_not_mem_beforeNul (bytes : List UInt8) : 0 ∉ beforeNul bytes := by
  intro h
  have := List.all_eq_true.mp List.all_takeWhile 0 h
  simp at this

/-- The content of a buffer that the native side has allocated for a string. -/
structure NativeString where
  bytes : List UInt8
  nul_not_mem : 0 ∉ bytes

namespace NativeString

/-- The bytes in memory, with the terminator. -/
def memory (s : NativeString) : List UInt8 :=
  s.bytes ++ [0]

/-- Allocates a buffer for bytes, of which those before a NUL are copied. -/
def allocate (bytes : List UInt8) : NativeString :=
  ⟨beforeNul bytes, nul_not_mem_beforeNul bytes⟩

end NativeString

/-- The text of bytes, or where it stops being valid. -/
def decodeBytes (bytes : List UInt8) : Except BoundaryFault String :=
  match Text.ofUtf8 bytes with
  | .ok text => .ok text
  | .error validUpTo => .error (.invalidUtf8 validUpTo)

/-- The position of the first NUL. -/
def nulPosition? (bytes : List UInt8) : Option Nat :=
  bytes.findIdx? (· == 0)

/-- Hands a text to the native side. -/
def pack (text : String) : Except BoundaryFault NativeString :=
  match h : nulPosition? (Text.encode text) with
  | some position => .error (.interiorNul position)
  | none =>
    .ok ⟨Text.encode text, by
      intro hmem
      have := List.findIdx?_eq_none_iff.mp h 0 hmem
      simp at this⟩

/-- Takes a buffer over and reads it. -/
def takeString : Option NativeString → Except BoundaryFault String
  | none => .error (.nullPointer .string)
  | some s => decodeBytes s.bytes

/-- Takes a buffer over and reads up to `length` bytes of it. -/
def takeBuffer (length : Nat) : Option NativeString → Except BoundaryFault String
  | none => .error (.nullPointer .string)
  | some s => decodeBytes (s.bytes.take length)

/-- Reads a string in memory that stays with its owner. -/
def copyString : Option (List UInt8) → Except BoundaryFault String
  | none => .error (.nullPointer .string)
  | some memory => decodeBytes (beforeNul memory)

end IdlBindings.Native
