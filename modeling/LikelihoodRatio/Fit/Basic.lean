/-
# Goodness of fit

Observed counts are compared with an expected distribution.  The expected values may be counts or
proportions on any scale: unless they already sum to the number of observations they are rescaled
to it.  The scale is applied to the logarithms of the expected values, so that values near the
ends of the range of numbers neither overflow nor vanish on the way.
-/
import LikelihoodRatio.Fit.Hypothesis
import LikelihoodRatio.Outcome.Basic
import LikelihoodRatio.Term

namespace LikelihoodRatio.Fit

open Arithmetic

section Statistic

variable {α : Type} [Arithmetic α]

/-- Expected totals that are closer than this to the number of observations are not rescaled. -/
def tolerance : α := 1e-5

/-- The smallest number that is represented with full precision. -/
def smallestNormal : α := 2.2250738585072014e-308

/-- The largest of the expected values, and at least the smallest normal number. -/
def largest (expected : List α) : α := expected.foldl larger smallestNormal

/-- The sum of the expected values in units of `unit`. -/
def unitSum (unit : α) (expected : List α) : α := leftSum (expected.map (· / unit))

/-- The expected values miss a total by more than the tolerance, and are brought to it. -/
def Rescales (expected : List α) (total : α) : Prop :=
  let difference := largest expected * unitSum (largest expected) expected - total
  tolerance < difference ∨ difference < -tolerance

instance decidableRescales (expected : List α) (total : α) : Decidable (Rescales expected total) :=
  inferInstanceAs (Decidable (_ ∨ _))

/-- The logarithm of the factor that scales the expected values to the number of observations. -/
def lnScale (expected : List α) (total : α) : α :=
  let unit := largest expected
  if Rescales expected total then ln total - ln unit - ln (unitSum unit expected) else 0.0

/-- The statistic of data that have been checked. -/
def statisticOf (expected : List α) (observed : List Int) : α :=
  let shift := lnScale expected (countSum observed)
  2.0 * leftSum (List.zipWith (fun o e => termOfLn o (ln e + shift)) observed expected)

/-- The conditions on expected values and counts. -/
def validate (expected : List α) (observed : List Int) : Except (Error α) Unit := do
  Check.categories expected.length 2
  Check.sameLength expected observed
  Check.expected expected
  Check.counts observed

def statistic (expected : List α) (observed : List Int) : Except (Error α) α := do
  validate expected observed
  return statisticOf expected observed

end Statistic

/-- The outcome of the test under a hypothesis. -/
def evaluate (expected : List Float) (observed : List Int) (h : Hypothesis) :
    Except (Error Float) Outcome := do
  let g ← statistic expected observed
  Outcome.ofStatistic g (← h.degreesOfFreedom observed.length)

/-- The p-value under a hypothesis. -/
def pValue (expected : List Float) (observed : List Int) (h : Hypothesis) :
    Except (Error Float) Float := do
  let g ← statistic expected observed
  ChiSquared.upperTail g (← h.degreesOfFreedom observed.length)

/-- Whether the counts depart from the distribution at the significance level `alpha`. -/
def test (expected : List Float) (observed : List Int) (h : Hypothesis) (alpha : Float) :
    Logged Bool := do
  Check.level alpha
  let g ← statistic expected observed
  decideAt g (← h.degreesOfFreedom (α := Float) observed.length) alpha

end LikelihoodRatio.Fit
