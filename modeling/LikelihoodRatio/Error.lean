/-
# What can be wrong with an input

A test refuses data that it has no answer for, and says what is wrong with it.  The causes are
kept as data; their wording is one function.
-/
import LikelihoodRatio.Decimal.Shortest

namespace LikelihoodRatio

/-- A row or a column of a table, by its index. -/
inductive Marginal where
  | row (index : Nat)
  | column (index : Nat)
deriving DecidableEq, Repr

/-- Why an operation has no result.  Numbers in a cause are of the arithmetic `α`. -/
inductive Error (α : Type) where
  /-- Two lists that belong together differ in length, or a row differs from the first one. -/
  | lengthMismatch (expected found : Nat)
  /-- There are fewer categories, rows or columns than needed. -/
  | tooFewCategories (required found : Nat)
  /-- An observed count is negative. -/
  | negativeCount (index : Nat) (value : Int)
  /-- An expected value is not a positive number. -/
  | nonPositiveExpected (index : Nat) (value : α)
  /-- A row or a column has no observations. -/
  | degenerateMarginal (marginal : Marginal)
  /-- A significance level does not lie strictly between zero and one. -/
  | significanceOutOfRange (level : α)
  /-- A text is none of the names that a kind of value has. -/
  | unknownName (text kind : String) (names : List String)
  /-- A row is asked for that a table does not have. -/
  | noRow (index : Nat)
  /-- A number is taken from a smaller one. -/
  | belowZero (number taken : Nat)
  /-- There is no such distribution. -/
  | noDistribution (reason : String)
  /-- A statistic is positive, and half of it is too small to be told from zero. -/
  | vanishingStatistic
  /-- A document cannot be stored. -/
  | unwritable
  /-- A document is missing or malformed. -/
  | unreadable
deriving DecidableEq, Repr

/-- The items of a list, each followed by a comma and a blank. -/
def listing (items : List String) : String := String.join (items.map (· ++ ", "))

/-- The name of a row or a column in messages. -/
def Marginal.name : Marginal → String
  | .row i => s!"row {i}"
  | .column j => s!"column {j}"

/-- What is told about an error. -/
def Error.message : Error Float → String
  | .lengthMismatch expected found =>
    s!"Dimension mismatch, expected length {expected} but found {found}."
  | .tooFewCategories required found =>
    s!"Insufficient dimension, at least {required} required but {found} provided."
  | .negativeCount index value => s!"Observed count {value} at position {index} is negative."
  | .nonPositiveExpected index value =>
    s!"Expected value {Decimal.plain value} at position {index} is not strictly positive."
  | .degenerateMarginal marginal => s!"The counts of {marginal.name} sum to zero."
  | .significanceOutOfRange level =>
    s!"Significance level {Decimal.plain level} is out of range, "
      ++ "expected a value strictly between 0 and 1."
  | .unknownName text kind names =>
    s!"Invalid value {text} passed for {kind}, expected one of {listing names}."
  | .noRow index => s!"There is no row {index}."
  | .belowZero number taken => s!"{taken} cannot be taken from {number}."
  | .noDistribution reason => s!"Unable to build chi-squared distribution: {reason}"
  | .vanishingStatistic => "Half of the statistic is zero."
  | .unwritable => "Unable to write configuration."
  | .unreadable => "Unable to read configuration."

end LikelihoodRatio
