/-!
Text as UTF-8 bytes. Decoding takes the longest part at the front that is
valid, and returns the bytes that are left.
-/

namespace IdlBindings.Text

def encodeChar (c : Char) : List UInt8 :=
  let n := c.toNat
  if n < 0x80 then [n.toUInt8]
  else if n < 0x800 then [(0xc0 + n / 64).toUInt8, (0x80 + n % 64).toUInt8]
  else if n < 0x10000 then
    [(0xe0 + n / 4096).toUInt8, (0x80 + n / 64 % 64).toUInt8, (0x80 + n % 64).toUInt8]
  else
    [(0xf0 + n / 262144).toUInt8, (0x80 + n / 4096 % 64).toUInt8, (0x80 + n / 64 % 64).toUInt8,
      (0x80 + n % 64).toUInt8]

def encode (text : String) : List UInt8 :=
  text.toList.flatMap encodeChar

/-- The six bits of a byte that continues a character. -/
def continuation? (byte : UInt8) : Option Nat :=
  if 0x80 ≤ byte.toNat ∧ byte.toNat < 0xc0 then some (byte.toNat - 0x80) else none

/-- The character of two bytes, unless one byte would do. -/
def twoByteChar? (a b : UInt8) : Option Char := do
  guard (0xc0 ≤ a.toNat ∧ a.toNat < 0xe0)
  let n := (a.toNat - 0xc0) * 64 + (← continuation? b)
  guard (0x80 ≤ n)
  return Char.ofNat n

/-- The character of three bytes, unless fewer would do or it is a surrogate. -/
def threeByteChar? (a b c : UInt8) : Option Char := do
  guard (0xe0 ≤ a.toNat ∧ a.toNat < 0xf0)
  let n := (a.toNat - 0xe0) * 4096 + (← continuation? b) * 64 + (← continuation? c)
  guard (0x800 ≤ n ∧ ¬(0xd800 ≤ n ∧ n < 0xe000))
  return Char.ofNat n

/-- The character of four bytes, unless fewer would do or there is none. -/
def fourByteChar? (a b c d : UInt8) : Option Char := do
  guard (0xf0 ≤ a.toNat ∧ a.toNat < 0xf8)
  let n := (a.toNat - 0xf0) * 262144 + (← continuation? b) * 4096 + (← continuation? c) * 64 +
    (← continuation? d)
  guard (0x10000 ≤ n ∧ n < 0x110000)
  return Char.ofNat n

/-- The characters at the front and the bytes from the first that does not
belong to one. -/
def decode : List UInt8 → List Char × List UInt8
  | [] => ([], [])
  | a :: rest =>
    if a.toNat < 0x80 then
      let (chars, left) := decode rest
      (Char.ofNat a.toNat :: chars, left)
    else
      match rest with
      | [] => ([], a :: rest)
      | b :: rest₂ =>
        match twoByteChar? a b with
        | some char =>
          let (chars, left) := decode rest₂
          (char :: chars, left)
        | none =>
          match rest₂ with
          | [] => ([], a :: rest)
          | c :: rest₃ =>
            match threeByteChar? a b c with
            | some char =>
              let (chars, left) := decode rest₃
              (char :: chars, left)
            | none =>
              match rest₃ with
              | [] => ([], a :: rest)
              | d :: rest₄ =>
                match fourByteChar? a b c d with
                | some char =>
                  let (chars, left) := decode rest₄
                  (char :: chars, left)
                | none => ([], a :: rest)

/-- The text that bytes encode, or how many bytes at the front are valid. -/
def ofUtf8 (bytes : List UInt8) : Except Nat String :=
  match decode bytes with
  | (chars, []) => .ok (String.ofList chars)
  | (_, left) => .error (bytes.length - left.length)

end IdlBindings.Text
