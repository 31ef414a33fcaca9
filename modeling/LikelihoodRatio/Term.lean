/-
# The likelihood ratio statistic

Counts `o` are compared with expected values `e` by twice the sum of `o * ln (o / e)`.
-/
import LikelihoodRatio.Arithmetic

namespace LikelihoodRatio

open Arithmetic

variable {α : Type} [Arithmetic α]

/-- What one count adds to the sum: `o * ln (o / e)`.  An empty cell adds nothing, whatever is
expected of it, since `x * ln x` tends to zero with `x`. -/
def term (observed : Int) (expected : α) : α :=
  if observed = 0 then 0.0 else ofInt observed * ln (ofInt observed / expected)

/-- What one count adds to the sum, for an expected value that is given by its logarithm.  The
expected value itself may be too large or too small to be represented. -/
def termOfLn (observed : Int) (lnExpected : α) : α :=
  if observed = 0 then 0.0 else ofInt observed * (ln (ofInt observed) - lnExpected)

/-- The statistic of counts and the values expected of them.  The expected values are used as
they are; the longer list is cut to the length of the shorter one. -/
def statistic (observed : List Int) (expected : List α) : α :=
  2.0 * leftSum (List.zipWith term observed expected)

end LikelihoodRatio
