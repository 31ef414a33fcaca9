/-
# Screening many tables

Many independent tables are evaluated at once.  A table that has no result does not keep the
others from having one.
-/
import LikelihoodRatio.Fourfold
import LikelihoodRatio.Tasks

namespace LikelihoodRatio.Screening

/-- The p-value of the independence test for each table. -/
def pValues (tables : List Table) (parallel : Bool) : List (Except (Error Float) Float) :=
  Tasks.map parallel Table.pValue tables

/-- The score of each fourfold table. -/
def scores (tables : List Fourfold) (parallel : Bool) : List (Except (Error Float) Float) :=
  Tasks.map parallel Fourfold.score tables

/-- What has been found by the time that some of the tables have been looked at. -/
structure Progress where
  /-- The indices of the tables whose p-values lie below the level. -/
  rejected : List Nat
  /-- The number of tables without a p-value. -/
  skipped : Nat
deriving DecidableEq, Repr

namespace Progress

def start : Progress := ⟨[], 0⟩

/-- Looks at the p-value of the table at an index, or at what is wrong with the table. -/
def look (alpha : Float) (found : Progress) :
    Except (Error Float) Float × Nat → Logged Progress
  | (.ok p, index) =>
    return if p < alpha then { found with rejected := found.rejected ++ [index] } else found
  | (.error e, index) => do
    Logged.enter (.skipped index e)
    return { found with skipped := found.skipped + 1 }

end Progress

/-- The indices of the tables whose rows and columns are dependent at the significance level
`alpha`.  Tables without a result are left out. -/
def significant (tables : List Table) (alpha : Float) (parallel : Bool) : Logged (List Nat) := do
  Check.level alpha
  let found ← (pValues tables parallel).zipIdx.foldlM (Progress.look alpha) Progress.start
  Logged.enter (.screened found.rejected.length tables.length alpha found.skipped)
  return found.rejected

end LikelihoodRatio.Screening
