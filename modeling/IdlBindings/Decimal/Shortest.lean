import IdlBindings.Decimal.Magnitude

/-!
The shortest decimal that a magnitude is nearest to. For one digit, two digits
and so on the two neighbours of the magnitude with that many digits are tried;
the first that rounds back is taken, the nearer one if both do.
-/

namespace IdlBindings.Decimal

/-- `digits * 10 ^ power`. -/
structure Scientific where
  digits : Nat
  power : Int
deriving DecidableEq

namespace Magnitude

/-- Bounds of the reals that round to `d`, as numerators over a common
denominator that is returned third. The gap below a power of two is half the
gap above it. -/
def roundingInterval (d : Magnitude) : Nat × Nat × Nat :=
  let low :=
    if d.mantissa = Nat.pow 2 52 && leastExponent < d.exponent then 4 * d.mantissa - 1
    else 4 * d.mantissa - 2
  let scale := Nat.pow 2 d.exponent.toNat
  (low * scale, (4 * d.mantissa + 2) * scale, 4 * d.denominator)

/-- Whether the decimal reads back as `d`; the bounds themselves do when the
mantissa is even. -/
def readsBack (d : Magnitude) (candidate : Scientific) : Bool :=
  let (low, high, den) := d.roundingInterval
  let num := candidate.digits * Nat.pow 10 candidate.power.toNat * den
  let unit := Nat.pow 10 (-candidate.power).toNat
  if d.mantissa % 2 = 0 then low * unit ≤ num && num ≤ high * unit
  else low * unit < num && num < high * unit

/-- The number `k` of digits before the decimal point: the magnitude is below
`10 ^ k` and at least `10 ^ (k - 1)`. -/
def decimalPlaces (d : Magnitude) : Int :=
  let whole := d.numerator / d.denominator
  if 0 < whole then (Nat.toDigits 10 whole).length
  else
    let inverse := (d.denominator + d.numerator - 1) / d.numerator
    if inverse ≤ 1 then 1 else 1 - ((Nat.toDigits 10 (inverse - 1)).length : Int)

/-- The neighbours of `d` on the grid of multiples of `10 ^ power`, nearer one
first and the even one first when `d` lies in the middle. Ten is written as
one digit. -/
def gridNeighbours (d : Magnitude) (power : Int) : List Scientific :=
  let num := d.numerator * Nat.pow 10 (-power).toNat
  let den := d.denominator * Nat.pow 10 power.toNat
  let below := num / den
  let twice := 2 * (num % den)
  let lower : Scientific := ⟨below, power⟩
  let upper : Scientific :=
    if below = 9 then ⟨1, power + 1⟩ else ⟨below + 1, power⟩
  if den < twice || (twice == den && below % 2 == 1) then [upper, lower] else [lower, upper]

/-- The first hit with `count` digits or, for the next `more` counts, more. -/
def shortestFrom (d : Magnitude) (count : Nat) : Nat → Scientific
  | 0 => ⟨0, 0⟩
  | more + 1 =>
    match (d.gridNeighbours (d.decimalPlaces - count)).find? d.readsBack with
    | some found => found
    | none => shortestFrom d (count + 1) more

/-- The shortest decimal for a magnitude other than zero; seventeen digits
always suffice. -/
def shortest (d : Magnitude) : Scientific :=
  d.shortestFrom 1 17

end Magnitude

end IdlBindings.Decimal
