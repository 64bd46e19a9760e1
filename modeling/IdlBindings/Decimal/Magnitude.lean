/-!
Magnitudes of double-precision numbers: a mantissa below `2 ^ 53` times a
power of two that is at least `2 ^ (-1074)`. A quotient of natural numbers is
rounded to the nearest such magnitude, a tie to the even mantissa. Signs are
kept elsewhere.
-/

namespace IdlBindings.Decimal

structure Magnitude where
  mantissa : Nat
  exponent : Int
deriving DecidableEq

namespace Magnitude

def leastExponent : Int := -1074

def zero : Magnitude := ⟨0, leastExponent⟩

def numerator (d : Magnitude) : Nat :=
  d.mantissa * Nat.pow 2 d.exponent.toNat

def denominator (d : Magnitude) : Nat :=
  Nat.pow 2 (-d.exponent).toNat

/-- Below `2 ^ 1024`, the first magnitude that overflows. -/
def isFinite (d : Magnitude) : Bool :=
  d.numerator < Nat.pow 2 1024 * d.denominator

/-- The nearest natural number to `num / den`, of two the even one. -/
def roundDiv (num den : Nat) : Nat :=
  let quotient := num / den
  let twice := 2 * (num % den)
  if den < twice || (twice == den && quotient % 2 == 1) then quotient + 1 else quotient

/-- The numerator and denominator of `num / den` in units of `2 ^ exponent`. -/
def inUnits (num den : Nat) (exponent : Int) : Nat × Nat :=
  (num * Nat.pow 2 (-exponent).toNat, den * Nat.pow 2 exponent.toNat)

/-- The power of two whose multiples next to `num / den` have 53 binary
digits, or the least one. -/
def unitExponent (num den : Nat) : Int :=
  let guess : Int := (num.log2 : Int) - den.log2 - 52
  let scaled := inUnits num den guess
  max leastExponent (if scaled.1 < Nat.pow 2 52 * scaled.2 then guess - 1 else guess)

/-- Rounds `num / den`. -/
def nearest (num den : Nat) : Magnitude :=
  if num = 0 then zero
  else
    let exponent := unitExponent num den
    let scaled := inUnits num den exponent
    let mantissa := roundDiv scaled.1 scaled.2
    if mantissa = Nat.pow 2 53 then ⟨Nat.pow 2 52, exponent + 1⟩ else ⟨mantissa, exponent⟩

def ofNat (n : Nat) : Magnitude :=
  nearest n 1

def mul (a b : Magnitude) : Magnitude :=
  nearest (a.numerator * b.numerator) (a.denominator * b.denominator)

def div (a b : Magnitude) : Magnitude :=
  nearest (a.numerator * b.denominator) (a.denominator * b.numerator)

/-- The power of ten as a magnitude, rounded where it is not exact. -/
def powerOfTen (n : Nat) : Magnitude :=
  ofNat (Nat.pow 10 n)

/-- The largest power of ten that is still a magnitude. -/
def greatestPower : Nat := 308

/-- Divides by a power of ten, in steps when the power itself is too large. -/
def divByPowerOfTen (d : Magnitude) (n : Nat) : Magnitude :=
  if n ≤ greatestPower then d.div (powerOfTen n)
  else if d.mantissa = 0 then d
  else divByPowerOfTen (d.div (powerOfTen greatestPower)) (n - greatestPower)
termination_by n
decreasing_by simp [greatestPower] at *; omega

/-- The magnitude read for `significand * 10 ^ power`: the significand is
rounded, then multiplied or divided by rounded powers of ten. `none` when the
result overflows. -/
def ofScientific? (significand : Nat) (power : Int) : Option Magnitude :=
  let start := ofNat significand
  if power < 0 then some (start.divByPowerOfTen (-power).toNat)
  else if start.mantissa = 0 then some start
  else if power.toNat ≤ greatestPower then
    let product := start.mul (powerOfTen power.toNat)
    if product.isFinite then some product else none
  else none

end Magnitude

end IdlBindings.Decimal
