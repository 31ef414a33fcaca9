/-
# Rounding to a decimal place

A number is rounded to a decimal place by scaling it with a power of ten, rounding to a whole
number, and scaling back.  Each of these steps is an operation on binary64 numbers and rounds on
its own.
-/
import LikelihoodRatio.Decimal.Binary

namespace LikelihoodRatio.Decimal

/-- The product of `r` and the `n`-th power of `a`, by repeated squaring. -/
def mulPower (r a : Float) (n : Nat) : Float :=
  let r := if n % 2 = 1 then r * a else r
  if n < 2 then r else mulPower r (a * a) (n / 2)
termination_by n
decreasing_by omega

/-- A power of ten.  A negative power is one divided by the positive one. -/
def powerOfTen (n : Int) : Float :=
  let p := mulPower 1.0 10.0 n.natAbs
  if n < 0 then 1.0 / p else p

/-- The nearest whole number; of two equally near ones the one farther from zero. -/
def nearestWhole (x : Float) : Float :=
  if x.isFinite then
    let whole := Float.ofNat (Binary.magnitude x).roundHalfUp
    if Binary.isNegative x then -whole else whole
  else x

/-- A number rounded to `places` digits after the point, or to a multiple of a power of ten if
`places` is negative. -/
def roundToPlaces (x : Float) (places : Int) : Float :=
  let p := powerOfTen places
  nearestWhole (x * p) / p

end LikelihoodRatio.Decimal
