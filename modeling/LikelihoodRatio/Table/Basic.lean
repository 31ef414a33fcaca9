/-
# Tables of counts

A table of counts is a list of rows.  The rows may differ in length; the operations here say what
they make of such a table, and `Check.rectangular` tells whether it is one.
-/
import LikelihoodRatio.Arithmetic

namespace LikelihoodRatio

/-- A table of counts, row by row. -/
abbrev Table := List (List Int)

namespace Table

open Arithmetic

/-- The number of columns, as the first row has them. -/
def width : Table → Nat
  | [] => 0
  | row :: _ => row.length

/-- The cells in row-major order.  Each has the position that it would have if all rows were as
long as the first one. -/
def cells (t : Table) : List (Int × Nat) :=
  t.zipIdx.flatMap fun (row, i) => row.zipIdx.map fun (count, j) => (count, i * t.width + j)

variable {α : Type} [Arithmetic α]

/-- The sum of each row. -/
def rowSums (t : Table) : List α := t.map countSum

/-- Adds a row to the sums of the columns.  What is beyond the last column is left out, and a
column that the row does not reach keeps its sum. -/
def addRow : List α → List Int → List α
  | sum :: sums, count :: row => (sum + ofInt count) :: addRow sums row
  | sums, _ => sums

/-- The sum of each column that the first row has. -/
def colSums (t : Table) : List α := t.foldl addRow (List.replicate t.width 0.0)

end Table

/-- The sums along the margins of a table. -/
structure Margins (α : Type) where
  /-- The sums of the rows. -/
  rows : List α
  /-- The sums of the columns. -/
  cols : List α
deriving DecidableEq, Repr

namespace Margins

variable {α : Type} [Arithmetic α]

def ofTable (t : Table) : Margins α := ⟨t.rowSums, t.colSums⟩

/-- The number of observations, added up along the rows. -/
def total (m : Margins α) : α := leftSum m.rows

/-- What is expected of a cell if rows and columns are independent. -/
def expectedOf (total row col : α) : α := row * col / total

/-- What is expected of all cells if rows and columns are independent. -/
def expected (m : Margins α) : List (List α) :=
  let total := m.total
  m.rows.map fun r => m.cols.map fun c => expectedOf total r c

end Margins

end LikelihoodRatio
