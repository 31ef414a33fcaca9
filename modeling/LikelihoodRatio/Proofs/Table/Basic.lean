/-
# The columns of a table

A table is kept by its rows.  Its columns are read off them, and the table of the columns is the
transposed table.  The running sums over the rows are the sums of the columns, in any arithmetic and
for rows of any lengths: both add the cells of a column in the order of the rows
(`colSums_eq_rowSums_transpose`).

If all rows are equally long, the transposed table has the same cells in another order
(`flatten_transpose_perm`), and transposing it again gives the table back (`transpose_transpose`).
-/
import LikelihoodRatio.Table.Basic
import Mathlib.Data.List.Basic
import Mathlib.Data.List.Perm.Basic

namespace LikelihoodRatio.Table

open Arithmetic

/-- The cells of a column, in the order of the rows that reach it. -/
def column (t : Table) (j : Nat) : List Int := t.filterMap (·[j]?)

/-- The table with rows and columns exchanged.  It has a row for each column of the first row. -/
def transpose (t : Table) : Table := (List.range t.width).map t.column

/-- The columns of a table in a given order. -/
def selectCols (order : List Nat) (t : Table) : Table :=
  t.map fun row => order.filterMap (row[·]?)

/-- Each count multiplied by a number. -/
def multiply (m : Int) (t : Table) : Table := t.map (·.map (m * ·))

/-- All rows are as long as the first one. -/
def Rectangular (t : Table) : Prop := ∀ row ∈ t, row.length = t.width

instance decidableRectangular : DecidablePred Rectangular := fun t =>
  inferInstanceAs (Decidable (∀ row ∈ t, row.length = t.width))

variable {t : Table}

lemma column_cons (row : List Int) (t : Table) (j : Nat) :
    column (row :: t) j = row[j]?.toList ++ t.column j := by
  rw [column, List.filterMap_cons]
  cases row[j]? <;> rfl

lemma length_transpose (t : Table) : t.transpose.length = t.width := by simp [transpose]

lemma getElem?_transpose {j : Nat} (hj : j < t.width) : t.transpose[j]? = some (t.column j) := by
  simp [transpose, List.getElem?_range hj]

lemma mem_transpose_iff {col : List Int} :
    col ∈ t.transpose ↔ ∃ j < t.width, t.column j = col := by
  simp [transpose]

/-! ### The sums of the columns -/

section Sums

variable {α : Type} [Arithmetic α]

lemma countSum_eq_foldl (counts : List Int) :
    (countSum counts : α) = counts.foldl (fun s x => s + ofInt x) 0.0 := by
  rw [countSum, leftSum, List.foldl_map]

lemma getElem?_addRow (sums : List α) (row : List Int) (j : Nat) :
    (addRow sums row)[j]? =
      sums[j]?.map fun s => row[j]?.toList.foldl (fun s x => s + ofInt x) s := by
  induction sums generalizing row j with
  | nil => simp [addRow]
  | cons s sums ih =>
    cases row with
    | nil => simp [addRow]
    | cons x row =>
      cases j with
      | zero => simp [addRow]
      | succ j => simpa [addRow] using ih row j

/-- Adding rows to running sums adds the cells of each column in the order of the rows. -/
lemma getElem?_foldl_addRow (t : Table) (sums : List α) (j : Nat) :
    (t.foldl addRow sums)[j]? =
      sums[j]?.map fun s => (t.column j).foldl (fun s x => s + ofInt x) s := by
  induction t generalizing sums with
  | nil => simp [column]
  | cons row t ih =>
    rw [List.foldl_cons, ih, getElem?_addRow, Option.map_map, column_cons]
    simp only [Function.comp_def, List.foldl_append]

/-- The sums of the columns are the sums of the rows of the transposed table. -/
theorem colSums_eq_rowSums_transpose (t : Table) :
    (t.colSums : List α) = t.transpose.rowSums := by
  apply List.ext_getElem?
  intro j
  rw [colSums, getElem?_foldl_addRow, rowSums, transpose, List.getElem?_map, List.getElem?_map]
  by_cases hj : j < t.width
  · simp [hj, countSum_eq_foldl]
  · simp [hj]

end Sums

/-! ### Tables with equally long rows -/

lemma width_eq {w : Nat} (h : ∀ row ∈ t, row.length = w) (hne : t ≠ []) : t.width = w := by
  cases t with
  | nil => exact absurd rfl hne
  | cons row t => exact h row List.mem_cons_self

/-- Where a function is defined throughout, its values are at the places of the items. -/
lemma getElem?_filterMap_of_isSome {β γ : Type} {f : β → Option γ} {xs : List β}
    (h : ∀ x ∈ xs, (f x).isSome) (k : Nat) : (xs.filterMap f)[k]? = xs[k]?.bind f := by
  induction xs generalizing k with
  | nil => simp
  | cons x xs ih =>
    obtain ⟨y, hy⟩ := Option.isSome_iff_exists.1 (h x List.mem_cons_self)
    rw [List.filterMap_cons_some hy]
    cases k with
    | zero => simp [hy]
    | succ k => simpa using ih (fun x hx => h x (List.mem_cons_of_mem _ hx)) k

lemma filterMap_range_getElem? {β : Type} (xs : List β) :
    (List.range xs.length).filterMap (xs[·]?) = xs := by
  apply List.ext_getElem?
  intro k
  rw [getElem?_filterMap_of_isSome]
  · by_cases hk : k < xs.length
    · simp [List.getElem?_range hk]
    · simp [hk]
  · intro j hj
    simpa using hj

namespace Rectangular

lemma isSome (h : t.Rectangular) {j : Nat} (hj : j < t.width) :
    ∀ row ∈ t, (row[j]?).isSome := by
  intro row hrow
  simpa [h row hrow] using hj

lemma getElem?_column (h : t.Rectangular) {j : Nat} (hj : j < t.width) (i : Nat) :
    (t.column j)[i]? = t[i]?.bind (·[j]?) :=
  getElem?_filterMap_of_isSome (h.isSome hj) i

lemma length_column (h : t.Rectangular) {j : Nat} (hj : j < t.width) :
    (t.column j).length = t.length := by
  rw [column, List.length_filterMap_eq_countP, List.countP_eq_length]
  exact h.isSome hj

lemma width_transpose (h : t.Rectangular) (hw : 0 < t.width) : t.transpose.width = t.length := by
  refine width_eq ?_ ?_
  · intro col hcol
    obtain ⟨j, hj, rfl⟩ := mem_transpose_iff.1 hcol
    exact h.length_column hj
  · rw [← List.length_pos_iff, length_transpose]
    exact hw

lemma transpose (h : t.Rectangular) : t.transpose.Rectangular := by
  intro col hcol
  obtain ⟨j, hj, rfl⟩ := mem_transpose_iff.1 hcol
  rw [h.length_column hj, h.width_transpose (Nat.zero_lt_of_lt hj)]

/-- A table that has a cell is the transpose of its transpose. -/
lemma transpose_transpose (h : t.Rectangular) (hw : 0 < t.width) :
    t.transpose.transpose = t := by
  apply List.ext_getElem?
  intro i
  by_cases hi : i < t.length
  · rw [getElem?_transpose (by rwa [h.width_transpose hw]), List.getElem?_eq_getElem hi]
    have hrow : (t[i]).length = t.width := h _ (List.getElem_mem hi)
    have hcells : ∀ j ∈ List.range t.width, ((·[i]?) ∘ t.column) j = t[i][j]? := by
      intro j hj
      rw [Function.comp_apply, h.getElem?_column (List.mem_range.1 hj),
        List.getElem?_eq_getElem hi]
      rfl
    rw [column, Table.transpose, List.filterMap_map, List.filterMap_congr hcells, ← hrow,
      filterMap_range_getElem?]
  · have hlength : t.transpose.transpose.length = t.length := by
      rw [length_transpose, h.width_transpose hw]
    rw [List.getElem?_eq_none (by omega), List.getElem?_eq_none (by omega)]

/-- The transposed table has the same cells. -/
lemma flatten_transpose_perm (h : t.Rectangular) : t.transpose.flatten.Perm t.flatten := by
  have hcols (w : Nat) (t : Table) (h : ∀ row ∈ t, row.length = w) :
      ((List.range w).flatMap t.column).Perm t.flatten := by
    induction t with
    | nil => simp [column]
    | cons row t ih =>
      have hrow : (List.range w).flatMap (fun j => row[j]?.toList) = row := by
        rw [← List.filterMap_eq_flatMap_toList, ← h row List.mem_cons_self,
          filterMap_range_getElem?]
      have hcons : column (row :: t) = fun j => row[j]?.toList ++ column t j :=
        funext (column_cons row t)
      rw [hcons, List.flatten_cons]
      refine (List.flatMap_append_perm _ _ _).symm.trans ?_
      rw [hrow]
      exact (ih fun row hrow => h row (List.mem_cons_of_mem _ hrow)).append_left row
  exact hcols t.width t h

end Rectangular

/-! ### Rows and columns in another order -/

lemma column_perm {s : Table} (h : s.Perm t) (j : Nat) : (s.column j).Perm (t.column j) :=
  h.filterMap _

namespace Rectangular

variable {order : List Nat}

/-- A row of the reordered table has the cells of the row. -/
lemma filterMap_order_perm (h : t.Rectangular) (horder : order.Perm (List.range t.width))
    {row : List Int} (hrow : row ∈ t) : (order.filterMap (row[·]?)).Perm row := by
  have hperm := horder.filterMap (row[·]?)
  rwa [← h row hrow, filterMap_range_getElem?] at hperm

lemma selectCols (h : t.Rectangular) (horder : order.Perm (List.range t.width)) :
    (t.selectCols order).Rectangular ∧ (t.selectCols order).width = t.width := by
  have hrows : ∀ row ∈ t.selectCols order, row.length = t.width := by
    intro row hrow
    obtain ⟨row, hmem, rfl⟩ := List.mem_map.1 hrow
    rw [(h.filterMap_order_perm horder hmem).length_eq, h row hmem]
  have hwidth : (t.selectCols order).width = t.width := by
    cases t with
    | nil => rfl
    | cons row t => exact width_eq hrows (by simp [Table.selectCols])
  exact ⟨fun row hrow => (hrows row hrow).trans hwidth.symm, hwidth⟩

/-- Reordering the columns reorders the rows of the transposed table. -/
lemma transpose_selectCols_perm (h : t.Rectangular)
    (horder : order.Perm (List.range t.width)) :
    (t.selectCols order).transpose.Perm t.transpose := by
  have hcols : (t.selectCols order).transpose = order.map t.column := by
    apply List.ext_getElem?
    intro k
    have hlength : order.length = t.width := by simpa using horder.length_eq
    by_cases hk : k < t.width
    · have hk' : k < order.length := by omega
      rw [getElem?_transpose (by rwa [(h.selectCols horder).2]), List.getElem?_map,
        List.getElem?_eq_getElem hk', Option.map_some, column, Table.selectCols,
        List.filterMap_map, column]
      congr 1
      refine List.filterMap_congr fun row hrow => ?_
      -- Every chosen column has a cell in the row, so that none is passed over.
      have hcells : ∀ j ∈ order, (row[j]?).isSome := fun j hj =>
        h.isSome (List.mem_range.1 (horder.mem_iff.1 hj)) row hrow
      rw [Function.comp_apply, getElem?_filterMap_of_isSome hcells, List.getElem?_eq_getElem hk',
        Option.bind_some]
    · rw [List.getElem?_eq_none, List.getElem?_eq_none]
      · rw [List.length_map, hlength]
        omega
      · rw [length_transpose, (h.selectCols horder).2]
        omega
  rw [hcols, Table.transpose]
  exact horder.map _

end Rectangular

/-! ### Multiplied counts -/

lemma width_multiply (m : Int) (t : Table) : (t.multiply m).width = t.width := by
  cases t with
  | nil => rfl
  | cons row t => simp [multiply, width]

lemma flatten_multiply (m : Int) (t : Table) :
    (t.multiply m).flatten = t.flatten.map (m * ·) := by
  rw [multiply, List.map_flatten]

lemma transpose_multiply (m : Int) (t : Table) :
    (t.multiply m).transpose = t.transpose.multiply m := by
  have hcolumn (j : Nat) : (t.multiply m).column j = (t.column j).map (m * ·) := by
    rw [column, multiply, List.filterMap_map, column, List.map_filterMap]
    exact List.filterMap_congr fun row _ => List.getElem?_map
  calc (t.multiply m).transpose
      = (List.range t.width).map (t.multiply m).column := by rw [transpose, width_multiply]
    _ = (List.range t.width).map fun j => (t.column j).map (m * ·) :=
        List.map_congr_left fun j _ => hcolumn j
    _ = t.transpose.multiply m := by
        rw [multiply, transpose, List.map_map]
        rfl

end LikelihoodRatio.Table
