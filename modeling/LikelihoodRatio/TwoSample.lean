/-
# Two samples

Two samples over the same categories are the two rows of a table.  They come from one
distribution if the rows and the columns of that table are independent.
-/
import LikelihoodRatio.Table.Independence

namespace LikelihoodRatio.TwoSample

/-- The table of two samples, which must have the same categories. -/
def table {α : Type} (first second : List Int) : Except (Error α) Table := do
  Check.sameLength first second
  return [first, second]

/-- The statistic that compares two samples. -/
def statistic {α : Type} [Arithmetic α] (first second : List Int) : Except (Error α) α := do
  (← table first second).statistic

def evaluate (first second : List Int) : Except (Error Float) Outcome := do
  (← table first second).evaluate

def pValue (first second : List Int) : Except (Error Float) Float := do
  (← table first second).pValue

/-- Whether two samples differ at the significance level `alpha`. -/
def test (first second : List Int) (alpha : Float) : Logged Bool := do
  (← table (α := Float) first second).test alpha

end LikelihoodRatio.TwoSample
