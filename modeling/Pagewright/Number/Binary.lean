namespace Pagewright

/-!
# Decimals and binary floating point numbers

A decimal is an exact number; a double is one of finitely many binary numbers.
Reading rounds the first to the nearest of the second, and a tie goes to the
even mantissa.  All arithmetic is exact and on natural numbers, with signs kept
apart.
-/

/-- The number `digits · 10 ^ exponent`. -/
structure Decimal where
  digits : Nat
  exponent : Int
deriving Repr, DecidableEq

/-- The number `mantissa · 2 ^ exponent`. -/
structure Binary where
  mantissa : Nat
  exponent : Int
deriving Repr, DecidableEq

/-- A positive fraction. -/
structure Fraction where
  numerator : Nat
  denominator : Nat
deriving Repr, DecidableEq

/-- The fraction `factor · base ^ exponent`. -/
def Fraction.power (factor base : Nat) (exponent : Int) : Fraction :=
  if 0 ≤ exponent then
    ⟨factor * base.pow exponent.toNat, 1⟩
  else
    ⟨factor, base.pow (-exponent).toNat⟩

def Decimal.toFraction (decimal : Decimal) : Fraction :=
  .power decimal.digits 10 decimal.exponent

def Binary.toFraction (binary : Binary) : Fraction :=
  .power binary.mantissa 2 binary.exponent

namespace Binary

/-- The width of a mantissa in bits. -/
def precision : Nat := 53

/-- The exponent of the smallest positive double. -/
def leastExponent : Int := -1074

/-- The exponent of the largest doubles. -/
def greatestExponent : Int := 971

/-- The quotient to the nearest whole number; a tie goes to the even one. -/
def roundDiv (numerator denominator : Nat) : Nat :=
  let quotient := numerator / denominator
  let doubled := 2 * (numerator % denominator)
  if doubled < denominator then quotient
  else if denominator < doubled then quotient + 1
  else quotient + quotient % 2

/-- The fraction in units of `2 ^ exponent`, rounded. -/
def scaled (fraction : Fraction) (exponent : Int) : Nat :=
  let unit := Fraction.power 1 2 exponent
  roundDiv (fraction.numerator * unit.denominator) (fraction.denominator * unit.numerator)

/-- The double nearest to a fraction; there is none above the largest one. -/
def ofFraction? (fraction : Fraction) : Option Binary :=
  let size : Int := fraction.numerator.log2 - fraction.denominator.log2
  let start := max leastExponent (size - precision)
  let exponent := if scaled fraction start < Nat.pow 2 precision then start else start + 1
  let mantissa := scaled fraction exponent
  let rounded : Binary :=
    if mantissa < Nat.pow 2 precision then ⟨mantissa, exponent⟩
    else ⟨mantissa / 2, exponent + 1⟩
  if rounded.exponent ≤ greatestExponent then some rounded else none

/-- The double nearest to a decimal.  Decimals far outside the range of doubles
are settled by their size alone. -/
def ofDecimal? (decimal : Decimal) : Option Binary :=
  let size := decimal.exponent + (toString decimal.digits).length
  if decimal.digits = 0 || size < -330 then some ⟨0, leastExponent⟩
  else if 310 < size then none
  else ofFraction? decimal.toFraction

end Binary

end Pagewright
