/-
# Independence of rows and columns

If the rows and the columns of a table are independent, a cell is expected to hold the product of
its row sum and its column sum divided by the total.  The statistic compares the counts with
these expected counts, and has one degree of freedom for each pair of a further row and a further
column.
-/
import LikelihoodRatio.Outcome.Basic
import LikelihoodRatio.Term

namespace LikelihoodRatio

namespace Table

section Statistic

variable {α : Type} [Arithmetic α]

/-- The statistic of a table, given its margins.  The cells of an empty row or column are empty
themselves and add nothing, so that such a table has a statistic too. -/
def statisticOf (t : Table) (m : Margins α) : α :=
  let total := m.total
  if total == 0.0 then 0.0
  else
    2.0 * (t.zip m.rows).foldl (fun sum (row, r) =>
      (row.zip m.cols).foldl (fun sum (count, c) =>
        sum + term count (Margins.expectedOf total r c)) sum) 0.0

/-- The statistic of a table that is known to be rectangular and without negative cells. -/
def uncheckedStatistic (t : Table) : α := t.statisticOf (.ofTable t)

/-- The margins of a table that an independence test accepts: rectangular, with at least two rows
and columns, without negative cells, and without empty rows or columns. -/
def validate (t : Table) : Except (Error α) (Margins α) := do
  Check.rectangular t
  Check.cells t
  let m := Margins.ofTable t
  Check.marginals m.rows m.cols
  return m

/-- The statistic of independence. -/
def statistic (t : Table) : Except (Error α) α := do
  let m ← t.validate
  return t.statisticOf m

/-- The counts that are expected if rows and columns are independent. -/
def expectedCounts (t : Table) : Except (Error α) (List (List α)) := do
  let m ← t.validate
  return m.expected

end Statistic

/-- The degrees of freedom of a table. -/
def degreesOfFreedom {α : Type} (t : Table) : Except (Error α) Nat := do
  return (← subtract t.length 1) * (← subtract (← t.row 0).length 1)

/-- The outcome of the independence test. -/
def evaluate (t : Table) : Except (Error Float) Outcome := do
  let g ← t.statistic
  Outcome.ofStatistic g (← t.degreesOfFreedom)

/-- The p-value of the independence test. -/
def pValue (t : Table) : Except (Error Float) Float := do
  let g ← t.statistic
  ChiSquared.upperTail g (← t.degreesOfFreedom)

/-- Whether rows and columns are dependent at the significance level `alpha`. -/
def test (t : Table) (alpha : Float) : Logged Bool := do
  Check.level alpha
  let g ← t.statistic (α := Float)
  decideAt g (← t.degreesOfFreedom (α := Float)) alpha

end Table

end LikelihoodRatio
