/-
# The fewest digits that read back

The text of a number has as few digits as can be without losing the number: read again, the
decimal gives the same number.  Among the decimals with that many digits the nearest one is
taken.
-/
import LikelihoodRatio.Decimal.Basic

namespace LikelihoodRatio

/-- Which of two equally near decimals is taken. -/
inductive Tie where
  /-- The larger one. -/
  | up
  /-- The one whose last digit is even. -/
  | toEven
deriving DecidableEq, Repr

namespace Decimal

/-- Whether a decimal reads back as the number `x`. -/
def readsBackAs (x : Float) (d : Decimal) : Bool := decide (d.toFloat.toBits = x.toBits)

/-- Among the decimals of `n` digits, the neighbour of the positive number `x` that reads back
as `x`, if there is one, and the nearer one if both do. -/
def ofDigitCount? (tie : Tie) (x : Float) (n : Nat) : Option Decimal :=
  let value := Binary.magnitude x
  let place := (n : Int) - 1 - leadingExponent value
  let scaled := value.scale 10 place
  let below : Decimal := ⟨scaled.floor, -place⟩
  let above := trimmed (scaled.floor + 1) (-place)
  match readsBackAs x below, readsBackAs x above with
  | true, true =>
    match scaled.compareHalf, tie with
    | .lt, _ => some below
    | .gt, _ => some above
    | .eq, .up => some above
    | .eq, .toEven => some (if scaled.floor % 2 = 0 then below else above)
  | true, false => some below
  | false, true => some above
  | false, false => none

/-- The decimal that has exactly the value of a finite number without its sign. -/
def exact (x : Float) : Decimal :=
  let e := Binary.exponent x
  trimmed (Binary.mantissa x * Nat.pow 2 e.toNat * Nat.pow 5 (-e).toNat) (min e 0)

/-- The shortest decimal that reads back as the finite number `x` without its sign.  Seventeen
digits are enough for every number. -/
def shortest (tie : Tie) (x : Float) : Decimal :=
  if Binary.mantissa x = 0 then ⟨0, 0⟩
  else ((List.range' 1 17).findSome? (ofDigitCount? tie x.abs)).getD (exact x)

/-- A number in running text: the shortest digits, without an exponent, and without a point for
a whole number. -/
def plain (x : Float) : String :=
  if x.isNaN then "NaN"
  else
    let unsigned := if x.isInf then ['i', 'n', 'f'] else (shortest .up x).positional
    String.ofList (if Binary.isNegative x then '-' :: unsigned else unsigned)

end Decimal

end LikelihoodRatio
