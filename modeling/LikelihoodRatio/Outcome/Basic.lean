/-
# Outcomes and decisions

A statistic and its degrees of freedom give a p-value, and a p-value below the significance level
rejects the hypothesis.
-/
import LikelihoodRatio.Check
import LikelihoodRatio.ChiSquared
import LikelihoodRatio.Log

namespace LikelihoodRatio

/-- The outcome of one test. -/
structure Outcome where
  /-- The likelihood ratio statistic. -/
  statistic : Float
  /-- Its degrees of freedom. -/
  degreesOfFreedom : Nat
  /-- The probability of a larger statistic if the hypothesis holds. -/
  pValue : Float
deriving DecidableEq, Repr

/-- Whether a p-value rejects the hypothesis at the significance level `alpha`. -/
def rejects (pValue alpha : Float) : Except (Error Float) Bool := do
  Check.level alpha
  return decide (pValue < alpha)

namespace Outcome

/-- The outcome that has a given statistic. -/
def ofStatistic (statistic : Float) (df : Nat) : Except (Error Float) Outcome := do
  let pValue ← ChiSquared.upperTail statistic df
  return ⟨statistic, df, pValue⟩

/-- Whether the outcome rejects the hypothesis at the significance level `alpha`. -/
def rejectsAt (outcome : Outcome) (alpha : Float) : Except (Error Float) Bool :=
  rejects outcome.pValue alpha

end Outcome

/-- Whether a statistic rejects the hypothesis at the significance level `alpha`. -/
def decideAt (statistic : Float) (df : Nat) (alpha : Float) : Logged Bool := do
  Check.level alpha
  let pValue ← ChiSquared.upperTail statistic df
  let reject := decide (pValue < alpha)
  Logged.enter (.decision statistic df pValue alpha reject)
  return reject

end LikelihoodRatio
