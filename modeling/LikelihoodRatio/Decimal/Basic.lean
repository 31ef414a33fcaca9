/-
# Decimals

A decimal is a whole number of digits with a power of ten.  A decimal is read as the nearest
binary64 number, and the digits of a decimal are laid out as text with a point.
-/
import LikelihoodRatio.Decimal.Binary

namespace LikelihoodRatio

/-- The number `digits * 10 ^ exponent`. -/
structure Decimal where
  /-- The digits, as one whole number. -/
  digits : Nat
  /-- The power of ten of the last digit. -/
  exponent : Int
deriving DecidableEq, Repr

namespace Decimal

/-- The decimal `digits * 10 ^ exponent` without zeros at its end.  Decimals of one value have
one such form. -/
def trimmed (digits : Nat) (exponent : Int) : Decimal :=
  if digits ≠ 0 ∧ digits % 10 = 0 then trimmed (digits / 10) (exponent + 1)
  else ⟨digits, exponent⟩
termination_by digits
decreasing_by omega

/-- The binary64 number nearest to a decimal, infinite for one beyond the largest. -/
def toFloat (d : Decimal) : Float :=
  let t := trimmed d.digits d.exponent
  Float.ofScientific t.digits (decide (t.exponent < 0)) t.exponent.natAbs

/-- The digits of a whole number. -/
def digitChars (n : Nat) : List Char := Nat.toDigits 10 n

/-- The exponent of the first digit of a positive fraction: the largest `e` for which
`10 ^ e` does not exceed it. -/
def leadingExponent (x : Fraction) : Int :=
  let e : Int := (digitChars x.num).length - (digitChars x.den).length
  let unit := Fraction.ofPower 1 10 e
  if unit.num * x.den ≤ x.num * unit.den then e else e - 1

/-- The digits `ds` with the point before the last `places` of them, and with zeros in front
where there are too few.  Without places there is no point. -/
def pointed (ds : List Char) (places : Nat) : List Char :=
  if places = 0 then ds
  else
    let padded := List.replicate (places + 1 - ds.length) '0' ++ ds
    padded.take (padded.length - places) ++ '.' :: padded.drop (padded.length - places)

/-- A decimal in positional notation, without an exponent. -/
def positional (d : Decimal) : List Char :=
  if d.digits = 0 then ['0']
  else pointed (digitChars d.digits ++ List.replicate d.exponent.toNat '0') (-d.exponent).toNat

end Decimal

end LikelihoodRatio
