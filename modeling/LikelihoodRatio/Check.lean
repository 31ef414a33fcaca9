/-
# Checks

The conditions that data must meet before a statistic is computed.  Each check looks for its
first violation and reports nothing else.

Two steps are not defined on all data, and rely on checks that come before them: looking at a row
of a table, and taking one number from another.
-/
import LikelihoodRatio.Error
import LikelihoodRatio.Table.Basic

namespace LikelihoodRatio

/-- The row at an index, which the table must have. -/
def Table.row {α : Type} (t : Table) (index : Nat) : Except (Error α) (List Int) :=
  match t[index]? with
  | some row => .ok row
  | none => .error (.noRow index)

/-- The number that is left, of which there must be enough. -/
def subtract {α : Type} (number taken : Nat) : Except (Error α) Nat :=
  if number < taken then .error (.belowZero number taken) else .ok (number - taken)

namespace Check

open Arithmetic

variable {α : Type}

/-- Lists that belong together have the same length. -/
def sameLength {β γ : Type} (a : List β) (b : List γ) : Except (Error α) Unit :=
  if a.length = b.length then .ok () else .error (.lengthMismatch a.length b.length)

/-- There are at least `required` categories. -/
def categories (found required : Nat) : Except (Error α) Unit :=
  if found < required then .error (.tooFewCategories required found) else .ok ()

/-- None of the counts, each with its position, is negative. -/
def positioned (counts : List (Int × Nat)) : Except (Error α) Unit :=
  match counts.find? (fun cell => decide (cell.1 < 0)) with
  | some (value, index) => .error (.negativeCount index value)
  | none => .ok ()

/-- No count is negative. -/
def counts (observed : List Int) : Except (Error α) Unit := positioned observed.zipIdx

/-- No cell of a table is negative. -/
def cells (t : Table) : Except (Error α) Unit := positioned t.cells

/-- The rows of a table have a given length. -/
def rowLengths (t : Table) (width : Nat) : Except (Error α) Unit :=
  match t.find? (fun row => row.length != width) with
  | some row => .error (.lengthMismatch width row.length)
  | none => .ok ()

/-- A table has at least two rows and two columns, and its rows are equally long. -/
def rectangular (t : Table) : Except (Error α) Unit := do
  categories t.length 2
  let width := (← t.row 0).length
  categories width 2
  rowLengths t width

variable [Arithmetic α]

/-- Every expected value is finite and positive. -/
def expected (values : List α) : Except (Error α) Unit :=
  match values.zipIdx.find? (fun cell => !(isFinite cell.1 && decide (0.0 < cell.1))) with
  | some (value, index) => .error (.nonPositiveExpected index value)
  | none => .ok ()

/-- No row and no column sums to zero; rows are looked at first. -/
def marginals (rowSums colSums : List α) : Except (Error α) Unit :=
  match rowSums.findIdx? (· == 0.0), colSums.findIdx? (· == 0.0) with
  | some i, _ => .error (.degenerateMarginal (.row i))
  | none, some j => .error (.degenerateMarginal (.column j))
  | none, none => .ok ()

/-- A significance level lies strictly between zero and one. -/
def level (alpha : α) : Except (Error α) Unit :=
  if 0.0 < alpha ∧ alpha < 1.0 then .ok () else .error (.significanceOutOfRange alpha)

end Check

end LikelihoodRatio
