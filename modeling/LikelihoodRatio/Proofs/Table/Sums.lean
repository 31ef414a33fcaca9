/-
# Sums along the columns

The sums of the columns are kept up while the rows are read.  Each of them is the sum of the cells
of its column, in the order of the rows, and nothing is added for a row that does not reach the
column (`sums_along_columns`).  No law of the arithmetic is needed, since the same numbers are added
in the same order.

A column of a table has a cell in the first row.  The sum of its cells may as well start with
negative zero, or with any other number that makes no difference to the first count (`Starts`).
-/
import LikelihoodRatio.Proofs.Binary64.Zeros
import LikelihoodRatio.Proofs.Table.RowMajor

namespace LikelihoodRatio

open Arithmetic

variable {α : Type} [Arithmetic α]

/-- The sum of counts, added up from `start` on. -/
def countSumFrom (start : α) (counts : List Int) : α := (counts.map ofInt).foldl (· + ·) start

/-- A sum of counts that starts with this number goes on like one that starts with zero. -/
def Starts (start : α) : Prop := ∀ count : Int, start + ofInt count = 0.0 + ofInt count

lemma Starts.countSumFrom_eq {start : α} (h : Starts start) {counts : List Int}
    (hne : counts ≠ []) : countSumFrom start counts = countSum counts := by
  obtain ⟨count, counts, rfl⟩ := List.exists_cons_of_ne_nil hne
  rw [countSumFrom, countSum, leftSum, List.map_cons, List.foldl_cons, List.foldl_cons, h]

/-- Negative zero adds nothing to any count, and neither does zero. -/
lemma starts_negZero (ln : Float → Float) : letI := binary64 ln
    Starts (-0.0 : Float) := by
  intro count
  change -0.0 + Float.ofInt count = 0.0 + Float.ofInt count
  rw [Binary64.negZero_add, Binary64.posZero_add (Binary64.ofInt_ne_negZero count)]

namespace Table

variable {t : Table} {j : Nat}

/-- The first row has a cell in each column. -/
lemma column_ne_nil (hj : j < t.width) : t.column j ≠ [] := by
  cases t with
  | nil => exact absurd hj (Nat.not_lt_zero j)
  | cons row t =>
    rw [column_cons, List.getElem?_eq_getElem (show j < row.length from hj)]
    simp

lemma getElem?_colSums (hj : j < t.width) :
    (t.colSums : List α)[j]? = some (countSum (t.column j)) := by
  rw [colSums_eq_rowSums_transpose, rowSums, List.getElem?_map, getElem?_transpose hj,
    Option.map_some]

namespace Rectangular

/-- Row and column of a cell change places. -/
lemma cell_transpose (h : t.Rectangular) (i j : Nat) :
    t.transpose[j]?.bind (·[i]?) = t[i]?.bind (·[j]?) := by
  by_cases hj : j < t.width
  · rw [getElem?_transpose hj, Option.bind_some, h.getElem?_column hj]
  · have hcol : t.transpose[j]? = none := by
      rw [List.getElem?_eq_none_iff, length_transpose]
      omega
    have hrow : ∀ row ∈ t[i]?, row[j]? = none := by
      intro row hrow
      rw [List.getElem?_eq_none_iff, h row (List.mem_of_getElem? hrow)]
      omega
    rw [hcol, Option.bind_none]
    exact (Option.bind_eq_none_iff.2 hrow).symm

lemma rowSums_eq_colSums_transpose (h : t.Rectangular) (hw : 0 < t.width) :
    (t.rowSums : List α) = t.transpose.colSums := by
  rw [colSums_eq_rowSums_transpose, h.transpose_transpose hw]

end Rectangular

/-- **Sums along the columns.**  There is a sum for each column of the first row, which is the sum
of the cells of the column in the order of the rows.  If all rows are equally long, the sums of the
columns are those of the rows of the transposed table, and the other way round.  All this holds in
any arithmetic, and for sums that start with negative zero as well. -/
theorem sums_along_columns (t : Table) :
    (∀ (α : Type) [Arithmetic α],
      (t.colSums : List α).length = t.width ∧
        (∀ j < t.width, t.column j ≠ [] ∧
          (t.colSums : List α)[j]? = some (countSum (t.column j))) ∧
        (t.Rectangular → 0 < t.width →
          (t.colSums : List α) = t.transpose.rowSums ∧
            (t.rowSums : List α) = t.transpose.colSums) ∧
        ∀ start : α, Starts start → ∀ counts ≠ [], countSumFrom start counts = countSum counts) ∧
      (t.Rectangular → ∀ i j : Nat, t.transpose[j]?.bind (·[i]?) = t[i]?.bind (·[j]?)) ∧
      ∀ ln : Float → Float, letI := binary64 ln
        Starts (-0.0 : Float) := by
  refine ⟨fun α _ => ⟨t.length_cols_ofTable, fun j hj => ?_, fun h hw => ?_, ?_⟩, ?_,
    starts_negZero⟩
  · exact ⟨column_ne_nil hj, getElem?_colSums hj⟩
  · exact ⟨t.colSums_eq_rowSums_transpose, h.rowSums_eq_colSums_transpose hw⟩
  · exact fun start hstart counts hne => hstart.countSumFrom_eq hne
  · exact fun h => h.cell_transpose

/-- Counts whose sum depends on the order in which they are added. -/
theorem sums_along_columns_large :
    Rectangular [[9007199254740992, 1], [1, 1], [1, 9007199254740992]] ∧
      0 < width [[9007199254740992, 1], [1, 1], [1, 9007199254740992]] ∧
      (colSums [[9007199254740992, 1], [1, 1], [1, 9007199254740992]] : List Float) =
        rowSums [[9007199254740992, 1, 1], [1, 1, 9007199254740992]] ∧
      (rowSums [[9007199254740992, 1], [1, 1], [1, 9007199254740992]] : List Float) =
        colSums [[9007199254740992, 1, 1], [1, 1, 9007199254740992]] ∧
      countSumFrom (-0.0 : Float) [1, 1, 9007199254740992] =
        countSum [1, 1, 9007199254740992] := by
  have hrect : Rectangular [[9007199254740992, 1], [1, 1], [1, 9007199254740992]] := by decide
  have hwidth : 0 < width [[9007199254740992, 1], [1, 1], [1, 9007199254740992]] := by decide
  obtain ⟨hany, -, hstarts⟩ :=
    sums_along_columns [[9007199254740992, 1], [1, 1], [1, 9007199254740992]]
  obtain ⟨-, -, htranspose, hfrom⟩ := hany Float
  obtain ⟨hcols, hrows⟩ := htranspose hrect hwidth
  exact ⟨hrect, hwidth, hcols, hrows, hfrom (-0.0) (hstarts Float.log) _ (by decide)⟩

end Table

end LikelihoodRatio
