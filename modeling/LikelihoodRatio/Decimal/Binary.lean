/-
# The exact value of a binary64 number

A finite binary64 number is a fraction of two natural numbers with a sign.  All text that this
library writes for a number is chosen by exact comparison of such fractions.
-/

namespace LikelihoodRatio

/-- A fraction of natural numbers, not necessarily in lowest terms. -/
structure Fraction where
  num : Nat
  den : Nat
deriving DecidableEq, Repr

namespace Fraction

/-- The whole number `m` times `base ^ e`. -/
def ofPower (m base : Nat) (e : Int) : Fraction :=
  ⟨m * Nat.pow base e.toNat, Nat.pow base (-e).toNat⟩

/-- A fraction times `base ^ e`. -/
def scale (x : Fraction) (base : Nat) (e : Int) : Fraction :=
  ⟨x.num * Nat.pow base e.toNat, x.den * Nat.pow base (-e).toNat⟩

/-- The whole part. -/
def floor (x : Fraction) : Nat := x.num / x.den

/-- How twice the part after the point compares with one: whether the nearest whole number is
below, above, or both are equally near. -/
def compareHalf (x : Fraction) : Ordering := compare (2 * (x.num % x.den)) x.den

/-- The nearest whole number; of two equally near ones the even one. -/
def roundHalfEven (x : Fraction) : Nat :=
  match x.compareHalf with
  | .lt => x.floor
  | .eq => x.floor + x.floor % 2
  | .gt => x.floor + 1

/-- The nearest whole number; of two equally near ones the larger one. -/
def roundHalfUp (x : Fraction) : Nat :=
  match x.compareHalf with
  | .lt => x.floor
  | .eq | .gt => x.floor + 1

end Fraction

namespace Binary

/-- Whether the sign bit is set, as it is for negative zero. -/
def isNegative (x : Float) : Bool := decide (Nat.pow 2 63 ≤ x.toBits.toNat)

/-- The eleven bits of the exponent. -/
def exponentBits (x : Float) : Nat := x.toBits.toNat / Nat.pow 2 52 % Nat.pow 2 11

/-- The fifty-two bits of the mantissa. -/
def mantissaBits (x : Float) : Nat := x.toBits.toNat % Nat.pow 2 52

/-- The whole number `m` in the form `m * 2 ^ e` of a finite number without its sign. -/
def mantissa (x : Float) : Nat :=
  if exponentBits x = 0 then mantissaBits x else Nat.pow 2 52 + mantissaBits x

/-- The exponent `e` in the form `m * 2 ^ e` of a finite number without its sign. -/
def exponent (x : Float) : Int :=
  if exponentBits x = 0 then -1074 else (exponentBits x : Int) - 1075

/-- A finite number without its sign. -/
def magnitude (x : Float) : Fraction := .ofPower (mantissa x) 2 (exponent x)

/-- The place of a number in the total order that puts the negative numbers by falling
magnitude, negative zero, zero, and the positive numbers by rising magnitude. -/
def rank (x : Float) : Int :=
  if isNegative x then -1 - (x.toBits.toNat % Nat.pow 2 63 : Nat) else (x.toBits.toNat : Int)

end Binary

end LikelihoodRatio
