/-
# A fixed number of digits

Numbers in reports have a fixed number of digits after the point, either in positional notation
or with one digit before the point and an exponent.  The exact value is rounded to the nearest
such decimal, and to the even one of two equally near ones.
-/
import LikelihoodRatio.Decimal.Basic

namespace LikelihoodRatio.Decimal

/-- The text of a number, given the text of a finite one without its sign. -/
def signed (finite : Float → List Char) (x : Float) : String :=
  if x.isNaN then "NaN"
  else
    let unsigned := if x.isInf then ['i', 'n', 'f'] else finite x
    String.ofList (if Binary.isNegative x then '-' :: unsigned else unsigned)

/-- A number with `places` digits after the point. -/
def fixed (places : Nat) (x : Float) : String :=
  signed (fun x =>
    pointed (digitChars ((Binary.magnitude x).scale 10 places).roundHalfEven) places) x

/-- A positive fraction rounded to one digit before and `places` after the point, as a decimal of
`places + 1` digits. -/
def roundedTo (places : Nat) (x : Fraction) : Decimal :=
  let e := leadingExponent x
  let digits := (x.scale 10 (places - e)).roundHalfEven
  if digits = Nat.pow 10 (places + 1) then ⟨Nat.pow 10 places, e + 1 - places⟩
  else ⟨digits, e - places⟩

/-- A number with one digit before the point, `places` after it, and an exponent. -/
def scientific (places : Nat) (x : Float) : String :=
  signed (fun x =>
    let d := if Binary.mantissa x = 0 then ⟨0, -places⟩ else roundedTo places (Binary.magnitude x)
    pointed (digitChars d.digits) places ++ 'e' :: (toString (d.exponent + places)).toList) x

end LikelihoodRatio.Decimal
