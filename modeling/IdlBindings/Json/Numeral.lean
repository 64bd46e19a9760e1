import IdlBindings.Decimal.Shortest

/-!
Numbers of a JSON text. A `Numeral` is a number as it is spelled, a `Number`
is what it stands for: an integer of 64 bits where one is spelled, and a
double-precision number otherwise.
-/

namespace IdlBindings.Json

open Decimal

/-- A spelled number. `fraction` is empty when there is no decimal point. -/
structure Numeral where
  negative : Bool
  whole : List Nat
  fraction : List Nat
  exponent : Option Int
deriving DecidableEq

inductive Number
  | natural (n : Nat)
  /-- The number `-n`, for a positive `n`. -/
  | negative (n : Nat)
  | real (isNegative : Bool) (magnitude : Magnitude)
deriving DecidableEq

/-- Appends digits to `value` as long as the result has 64 bits; returns the
result and how many digits are left from the first that no longer fits on. -/
def absorbDigits (value : Nat) : List Nat → Nat × Nat
  | [] => (value, 0)
  | digit :: rest =>
    if value * 10 + digit < Nat.pow 2 64 then absorbDigits (value * 10 + digit) rest
    else (value, rest.length + 1)

/-- What the numeral stands for, or `none` if it is too large. Digits of the
whole part that no longer fit count as powers of ten, those of the fraction
are dropped. -/
def Numeral.number? (numeral : Numeral) : Option Number :=
  let (whole, unread) := absorbDigits 0 numeral.whole
  if numeral.fraction.isEmpty && numeral.exponent.isNone && unread == 0 then
    if !numeral.negative then some (.natural whole)
    else if 0 < whole && whole ≤ Nat.pow 2 63 then some (.negative whole)
    else some (.real true (Magnitude.ofNat whole))
  else
    let (significand, dropped) := absorbDigits whole numeral.fraction
    let read : Int := (numeral.fraction.length : Int) - dropped
    (Magnitude.ofScientific? significand (unread - read + numeral.exponent.getD 0)).map
      (.real numeral.negative)

def digitsOf (n : Nat) : List Nat :=
  (Nat.toDigits 10 n).map fun c => c.toNat - 48

/-- The spelling of `digits * 10 ^ power`: positional from `10 ^ (-5)` up to
below `10 ^ 16`, always with a decimal point, and with an exponent outside. -/
def Numeral.ofScientific (negative : Bool) (value : Scientific) : Numeral :=
  let digits := digitsOf value.digits
  let places : Int := digits.length + value.power
  if 0 ≤ value.power && places ≤ 16 then
    ⟨negative, digits ++ List.replicate value.power.toNat 0, [0], none⟩
  else if 0 < places && places ≤ 16 then
    ⟨negative, digits.take places.toNat, digits.drop places.toNat, none⟩
  else if -5 < places && places ≤ 0 then
    ⟨negative, [0], List.replicate (-places).toNat 0 ++ digits, none⟩
  else ⟨negative, digits.take 1, digits.drop 1, some (places - 1)⟩

/-- The spelling of a number that is used when one is written. -/
def Number.numeral : Number → Numeral
  | .natural n => ⟨false, digitsOf n, [], none⟩
  | .negative n => ⟨true, digitsOf n, [], none⟩
  | .real isNegative magnitude =>
    if magnitude.mantissa = 0 then ⟨isNegative, [0], [0], none⟩
    else Numeral.ofScientific isNegative magnitude.shortest

def digitChar (digit : Nat) : Char :=
  Char.ofNat (digit + 48)

/-- The characters of an exponent, which always has its sign. -/
def exponentChars (exponent : Int) : List Char :=
  'e' :: (if exponent < 0 then '-' else '+') :: (digitsOf exponent.natAbs).map digitChar

def Numeral.chars (numeral : Numeral) : List Char :=
  (if numeral.negative then ['-'] else []) ++ numeral.whole.map digitChar ++
    (if numeral.fraction.isEmpty then [] else '.' :: numeral.fraction.map digitChar) ++
    (match numeral.exponent with
      | none => []
      | some exponent => exponentChars exponent)

def Number.text (number : Number) : String :=
  String.ofList number.numeral.chars

end IdlBindings.Json
