/-! Binary floating point with 53 significant bits.

A `Binary64` is an exact value: a significand times a power of two, or an infinity, or no number.
`ofDecimal` takes a decimal to the nearest of them, and of two equally near to the one with an
even significand. Everything is exact arithmetic on natural numbers. -/
namespace Munch

/-- A finite value is `significand * 2 ^ exponent`. The significand is below `2 ^ 53`, the exponent
from -1074 to 971, and a significand below `2 ^ 52` goes with the exponent -1074 only. -/
inductive Binary64
  | nan
  | infinity (negative : Bool)
  | finite (negative : Bool) (significand : Nat) (exponent : Int)
deriving DecidableEq, Repr

namespace Binary64

/-- The lowest exponent: the distance of the smallest values is `2 ^ minExponent`. -/
def minExponent : Int := -1074

/-- The highest exponent of a finite value. -/
def maxExponent : Int := 971

/-- The integer nearest to `num / den`, the even one of two. -/
def roundHalfEven (num den : Nat) : Nat :=
  let floor := num / den
  let twice := 2 * (num % den)
  if twice < den then floor
  else if den < twice then floor + 1
  else floor + floor % 2

/-- `num / den * 2 ^ (-exponent)` as a quotient of natural numbers. -/
def scaled (num den : Nat) (exponent : Int) : Nat × Nat :=
  (num * Nat.pow 2 (-exponent).toNat, den * Nat.pow 2 exponent.toNat)

/-- The exponent that leaves 53 bits before the point of `num / den`, or the lowest one. -/
def exponentOf (num den : Nat) : Int :=
  let guess : Int := max minExponent ((num.log2 : Int) - den.log2 - 53)
  let (n, d) := scaled num den guess
  if Nat.pow 2 53 ≤ n / d then guess + 1 else guess

/-- The value nearest to `num / den`. -/
def ofQuotient (negative : Bool) (num den : Nat) : Binary64 :=
  let exponent := exponentOf num den
  let (n, d) := scaled num den exponent
  let significand := roundHalfEven n d
  let (significand, exponent) :=
    if significand = Nat.pow 2 53 then (Nat.pow 2 52, exponent + 1) else (significand, exponent)
  if maxExponent < exponent then infinity negative else finite negative significand exponent

/-- The value nearest to `digits * 10 ^ exponent`. Beyond 400 decimal places on either side of the
point every value is an infinity or a zero, and no power of ten is computed. -/
def ofDecimal (negative : Bool) (digits : Nat) (exponent : Int) : Binary64 :=
  let size : Int := (Nat.toDigits 10 digits).length + exponent
  if digits = 0 ∨ size < -400 then finite negative 0 minExponent
  else if 400 < size then infinity negative
  else ofQuotient negative (digits * Nat.pow 10 exponent.toNat) (Nat.pow 10 (-exponent).toNat)

end Binary64
end Munch
