/-
# The upper tail of the chi-squared distribution

The probability that a chi-squared variable exceeds a value is the regularized upper incomplete
gamma function `Q (a, x)` at half the degrees of freedom and half the value.  It is one minus a
power series where the value is small, and a continued fraction where it is large.  The logarithm
of the gamma function is a sum of partial fractions.

All of this is computed in binary64 numbers, in a fixed order of operations.
-/
import LikelihoodRatio.Error

namespace LikelihoodRatio.ChiSquared

/-- The constant part of the partial fractions. -/
def lnGammaConstant : Float := 2.48574089138753565546e-5

/-- The numerators of the partial fractions. -/
def lnGammaNumerators : List Float :=
  [1.05142378581721974210, -3.45687097222016235469, 4.51227709466894823700,
   -2.98285225323576655721, 1.05639711577126713077, -1.95428773191645869583e-1,
   1.70970543404441224307e-2, -5.71926117404305781283e-4, 4.63399473359905636708e-6,
   -2.71994908488607703910e-9]

/-- The sum of the partial fractions at `a`. -/
def lnGammaSum (a : Float) : Float :=
  (lnGammaNumerators.zipIdx 1).foldl (fun s (d, i) => s + d / (a + Float.ofNat i - 1.0))
    lnGammaConstant

/-- The logarithm of the gamma function at `a`, for `a` of at least one half. -/
def lnGamma (a : Float) : Float :=
  (lnGammaSum a).log + 0.6207822376352452
    + (a - 0.5) * ((a - 0.5 + 10.900511) / 2.718281828459045).log

/-- The logarithm of `x ^ a * exp (-x)` over the gamma function at `a`. -/
def lnWeight (a x : Float) : Float := a * x.log - x - lnGamma a

/-- Below this value the exponential function is taken to be zero. -/
def smallestExponent : Float := -709.782712893384

/-- The precision to which series and fraction are computed. -/
def precision : Float := 1e-15

/-- A bound on the number of terms.  Both sums reach their precision long before. -/
def maxTerms : Nat := Nat.pow 2 40

/-- The series with terms `c * x / (r + 1) * x / (r + 2) …`, added to `sum` until a term no longer
matters. -/
def series (x : Float) : (terms : Nat) → (r c sum : Float) → Float
  | 0, _, _, sum => sum
  | terms + 1, r, c, sum =>
    let r := r + 1.0
    let c := c * (x / r)
    let sum := sum + c
    if c / sum ≤ precision then sum else series x terms r c sum

/-- The regularized lower incomplete gamma function, for `x` below one or not above `a`. -/
def lower (a x : Float) : Float :=
  if x ≤ 1.1102230246251565e-15 then 0.0
  else
    let w := lnWeight a x
    if w < smallestExponent then (if a < x then 1.0 else 0.0)
    else w.exp * series x maxTerms a 1.0 1.0 / a

/-- Two successive convergents of a continued fraction, and the numbers of its next step. -/
structure Convergents where
  /-- The numerator before the latest one. -/
  p0 : Float
  /-- The denominator before the latest one. -/
  q0 : Float
  /-- The latest numerator. -/
  p1 : Float
  /-- The latest denominator. -/
  q1 : Float
  /-- The first factor of the partial numerator. -/
  y : Float
  /-- The partial denominator. -/
  z : Float
  c : Float

namespace Convergents

/-- The convergents at the start. -/
def start (a x : Float) : Convergents :=
  let y := 1.0 - a
  let z := x + y + 1.0
  ⟨1.0, x, x + 1.0, z * x, y, z, 0.0⟩

/-- The next convergents. -/
def next (s : Convergents) : Convergents :=
  let y := s.y + 1.0
  let z := s.z + 2.0
  let c := s.c + 1.0
  ⟨s.p1, s.q1, s.p1 * z - s.p0 * (y * c), s.q1 * z - s.q0 * (y * c), y, z, c⟩

/-- The same convergents with smaller numerators and denominators, once they have become large. -/
def rescale (s : Convergents) : Convergents :=
  if s.p1.abs > 4503599627370496.0 then
    let u := 2.220446049250313e-16
    { s with p0 := s.p0 * u, q0 := s.q0 * u, p1 := s.p1 * u, q1 := s.q1 * u }
  else s

/-- The value of the continued fraction, starting from the estimate `r`, to the point where the
estimate no longer changes. -/
def value : (terms : Nat) → (r : Float) → Convergents → Float
  | 0, r, _ => r
  | terms + 1, r, s =>
    let s := s.next
    if s.q1 != 0.0 then
      let estimate := s.p1 / s.q1
      if ((r - estimate) / estimate).abs ≤ precision then estimate
      else value terms estimate s.rescale
    else value terms r s.rescale

end Convergents

/-- The regularized upper incomplete gamma function, for positive `x`. -/
def upper (a x : Float) : Float :=
  if x < 1.0 ∨ x ≤ a then 1.0 - lower a x
  else
    let w := lnWeight a x
    if w < smallestExponent then (if a < x then 0.0 else 1.0)
    else
      let s := Convergents.start a x
      s.value maxTerms (s.p1 / s.q1) * w.exp

/-- There is a distribution for a positive number of degrees of freedom. -/
def distribution (freedom : Float) : Except (Error Float) Unit :=
  if 0.0 < freedom then .ok () else .error (.noDistribution "Bad distribution parameters")

/-- The probability that a variable with this distribution exceeds a value.  A value that is not
positive is always exceeded. -/
def survival (freedom value : Float) : Except (Error Float) Float :=
  if 0.0 < value then
    if value.isInf then .ok 0.0
    else if value * 0.5 == 0.0 then .error .vanishingStatistic
    else .ok (upper (freedom * 0.5) (value * 0.5))
  else .ok 1.0

/-- The probability that a chi-squared variable with `df` degrees of freedom exceeds a value. -/
def upperTail (value : Float) (df : Nat) : Except (Error Float) Float :=
  if df = 0 then .error (.tooFewCategories 1 0)
  else do
    distribution (Float.ofNat df)
    survival (Float.ofNat df) value

end LikelihoodRatio.ChiSquared
