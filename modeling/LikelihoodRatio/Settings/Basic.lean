/-
# Settings

The choices that tests need, kept together so that they can be used again: the significance
level, the hypothesis of goodness-of-fit tests, and whether many tables are worked on at the same
time.
-/
import LikelihoodRatio.Fit.Basic
import LikelihoodRatio.Screening

namespace LikelihoodRatio

structure Settings where
  alpha : Float := 0.05
  /-- Where the expected distribution of a goodness-of-fit test comes from. -/
  hypothesis : Hypothesis := .simple
  /-- Whether many tables are worked on at the same time. -/
  parallel : Bool := false
deriving DecidableEq, Repr

namespace Settings

/-- The settings that hold where nothing else is said. -/
def standard : Settings := {}

/-- Whether the settings can be used. -/
def validate (s : Settings) : Except (Error Float) Unit := Check.level s.alpha

/-- The goodness-of-fit test under the hypothesis that is set. -/
def goodnessOfFit (s : Settings) (expected : List Float) (observed : List Int) :
    Logged (Outcome × Bool) := do
  s.validate
  let outcome ← Fit.evaluate expected observed s.hypothesis
  Logged.enter (.goodnessOfFit s.hypothesis.name observed outcome.pValue)
  let reject ← outcome.rejectsAt s.alpha
  return (outcome, reject)

/-- The independence test of a table. -/
def independence (s : Settings) (t : Table) : Except (Error Float) (Outcome × Bool) := do
  s.validate
  let outcome ← t.evaluate
  let reject ← outcome.rejectsAt s.alpha
  return (outcome, reject)

/-- The indices of the tables whose rows and columns are dependent. -/
def significant (s : Settings) (tables : List Table) : Logged (List Nat) :=
  Screening.significant tables s.alpha s.parallel

end Settings

end LikelihoodRatio
