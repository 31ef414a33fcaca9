/-
# Fourfold tables

A fourfold table counts how often two events A and B occur together, A without B, B without A,
and neither of them.  Its score is the root of the statistic, with the sign of the association.
A table with an empty row or column has a score too: nothing can be said of such events, and the
score is zero.
-/
import LikelihoodRatio.Table.Independence

namespace LikelihoodRatio

/-- The counts of two events A and B. -/
structure Fourfold where
  /-- How often both occur. -/
  both : Int
  /-- How often A occurs without B. -/
  onlyA : Int
  /-- How often B occurs without A. -/
  onlyB : Int
  /-- How often neither occurs. -/
  neither : Int
deriving DecidableEq, Repr

/-- The smallest count that 64 bits can hold. -/
def smallestCount : Int := -9223372036854775808

/-- The largest count that 64 bits can hold. -/
def largestCount : Int := 9223372036854775807

namespace Fourfold

open Arithmetic

/-- The counts in row-major order. -/
def counts (f : Fourfold) : List Int := [f.both, f.onlyA, f.onlyB, f.neither]

/-- The table with a row for A, a row for its absence, and columns for B. -/
def toTable (f : Fourfold) : Table := [[f.both, f.onlyA], [f.onlyB, f.neither]]

variable {α : Type}

/-- The table of two events that occur together `both` times and alone or together `countA` and
`countB` times in `total` observations.  Counts that imply a negative cell are refused with the
position of that cell; a last cell beyond 64 bits is reported as the smallest count. -/
def ofMarginals (both countA countB total : Int) : Except (Error α) Fourfold := do
  Check.counts [both, countA, countB, total]
  let onlyA := countA - both
  let onlyB := countB - both
  Check.counts [both, onlyA, onlyB]
  let neither := total - countA - countB + both
  if neither < smallestCount ∨ largestCount < neither then
    throw (.negativeCount 3 smallestCount)
  Check.counts [both, onlyA, onlyB, neither]
  return ⟨both, onlyA, onlyB, neither⟩

variable [Arithmetic α]

/-- The statistic of a fourfold table. -/
def statistic (f : Fourfold) : Except (Error α) α := do
  Check.counts f.counts
  return f.toTable.uncheckedStatistic

/-- The rate of B among the observations with A. -/
def rateWithA (f : Fourfold) : α := ofInt f.both / (ofInt f.both + ofInt f.onlyA)

/-- The rate of B among the observations without A. -/
def rateWithoutA (f : Fourfold) : α := ofInt f.onlyB / (ofInt f.onlyB + ofInt f.neither)

/-- The root of the statistic, positive if B is more frequent with A than without it, and
negative otherwise. -/
def score (f : Fourfold) : Except (Error α) α := do
  let g : α ← f.statistic
  if g ≤ 0.0 then return 0.0
  if (f.rateWithoutA : α) < f.rateWithA then return sqrt g else return -sqrt g

end Fourfold

end LikelihoodRatio
