import Pagewright.Number.Binary

namespace Pagewright

/-!
# The shortest decimal

A double is written with the fewest digits that read back as the same double.
Every decimal strictly between the midpoints to its two neighbours reads back,
and the midpoints do as well when the mantissa is even.  For one digit, two
digits and so on, the two decimals around the double are tried, and the nearer
of those that read back is taken.
-/

/-- The decimals that read back as one double, all four bounds times
`denominator`. -/
structure Window where
  lower : Nat
  middle : Nat
  upper : Nat
  denominator : Nat
  inclusive : Bool
deriving Repr, DecidableEq

namespace Window

/-- The window of a positive double.  Below a power of two the neighbours are
half as far away. -/
def ofBinary (binary : Binary) : Window :=
  let value := binary.toFraction
  let unit := (Fraction.power 1 2 binary.exponent).numerator
  let narrow := binary.mantissa = Nat.pow 2 (Binary.precision - 1) &&
    Binary.leastExponent < binary.exponent
  { lower := 4 * value.numerator - (if narrow then unit else 2 * unit)
    middle := 4 * value.numerator
    upper := 4 * value.numerator + 2 * unit
    denominator := 4 * value.denominator
    inclusive := binary.mantissa % 2 = 0 }

/-- Does a decimal lie in the window? -/
def holds (window : Window) (decimal : Decimal) : Bool :=
  let fraction := decimal.toFraction
  let scaled := fraction.numerator * window.denominator
  let lower := window.lower * fraction.denominator
  let upper := window.upper * fraction.denominator
  if window.inclusive then lower ≤ scaled && scaled ≤ upper
  else lower < scaled && scaled < upper

/-- The whole multiple of `10 ^ exponent` at or below the middle. -/
def below (window : Window) (exponent : Int) : Nat :=
  let unit := Fraction.power 1 10 exponent
  window.middle * unit.denominator / (window.denominator * unit.numerator)

/-- Is the middle at least as near to `digits` as to `digits + 1`, in units of
`10 ^ exponent`? -/
def prefersBelow (window : Window) (digits : Nat) (exponent : Int) : Bool :=
  let unit := Fraction.power 1 10 exponent
  2 * window.middle * unit.denominator ≤
    (2 * digits + 1) * (window.denominator * unit.numerator)

/-- The decimal of the window with the given exponent, the nearest one if there
are several. -/
def candidate? (window : Window) (exponent : Int) : Option Decimal :=
  let digits := window.below exponent
  let low : Decimal := ⟨digits, exponent⟩
  let high : Decimal := ⟨digits + 1, exponent⟩
  match 0 < digits && window.holds low, window.holds high with
  | true, true => some (if window.prefersBelow digits exponent then low else high)
  | true, false => some low
  | false, true => some high
  | false, false => none

end Window

namespace Binary

/-- The power of ten that is tried first. -/
def topExponent : Int := 309

/-- The number of powers of ten that are tried. -/
def exponentCount : Nat := 660

/-- The shortest decimal that reads back as a positive double. -/
def shortest (binary : Binary) : Decimal :=
  let window := Window.ofBinary binary
  ((List.range exponentCount).findSome? fun (step : Nat) =>
    window.candidate? (topExponent - step)).getD ⟨0, 0⟩

end Binary

/-- A decimal in positional notation, with a digit on either side of the
point. -/
def Decimal.positional (decimal : Decimal) : String :=
  let digits := toString decimal.digits
  if 0 ≤ decimal.exponent then
    digits ++ String.ofList (List.replicate decimal.exponent.toNat '0') ++ ".0"
  else
    let places := (-decimal.exponent).toNat
    let padded := List.replicate (places + 1 - digits.length) '0' ++ digits.toList
    let whole := padded.length - places
    String.ofList (padded.take whole) ++ "." ++ String.ofList (padded.drop whole)

end Pagewright
