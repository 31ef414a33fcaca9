/-
# Tables that the independence test accepts

The test asks for a rectangular table with at least two rows and two columns, without negative
cells, and with something counted in each row and each column (`WellFormed`).  Which of the sums
vanish is a question to the arithmetic; the rest is not (`validate_eq_ok_iff`).

Transposing a well-formed table, taking its rows in another order or multiplying its counts by a
positive number leaves it well-formed (`WellFormed.transpose`, `WellFormed.perm`,
`WellFormed.multiply_iff`).
-/
import LikelihoodRatio.Proofs.Checks
import LikelihoodRatio.Proofs.Table.Basic
import LikelihoodRatio.Table.Independence
import Mathlib.Algebra.BigOperators.Group.List.Lemmas
import Mathlib.Algebra.Order.BigOperators.Group.List
import Mathlib.Algebra.BigOperators.Ring.List
import Mathlib.Algebra.Order.Ring.Int

namespace LikelihoodRatio.Table

/-- A rectangular table of counts with at least two rows and two columns. -/
structure Shaped (t : Table) : Prop where
  two_le_length : 2 ≤ t.length
  two_le_width : 2 ≤ t.width
  rectangular : t.Rectangular
  nonneg : ∀ count ∈ t.flatten, 0 ≤ count

/-- A table with something counted in each row and each column. -/
structure WellFormed (t : Table) : Prop extends Shaped t where
  row_pos : ∀ row ∈ t, 0 < row.sum
  col_pos : ∀ col ∈ t.transpose, 0 < col.sum

instance decidableShaped : DecidablePred Shaped := fun t =>
  decidable_of_iff (2 ≤ t.length ∧ 2 ≤ t.width ∧ t.Rectangular ∧ ∀ count ∈ t.flatten, 0 ≤ count)
    ⟨fun ⟨h1, h2, h3, h4⟩ => ⟨h1, h2, h3, h4⟩, fun ⟨h1, h2, h3, h4⟩ => ⟨h1, h2, h3, h4⟩⟩

instance decidableWellFormed : DecidablePred WellFormed := fun t =>
  decidable_of_iff (t.Shaped ∧ (∀ row ∈ t, 0 < row.sum) ∧ ∀ col ∈ t.transpose, 0 < col.sum)
    ⟨fun ⟨h1, h2, h3⟩ => ⟨h1, h2, h3⟩, fun ⟨h1, h2, h3⟩ => ⟨h1, h2, h3⟩⟩

namespace Shaped

variable {t : Table}

lemma nonneg_row (h : t.Shaped) {row : List Int} (hrow : row ∈ t) : ∀ count ∈ row, 0 ≤ count :=
  fun count hcount => h.nonneg count (List.mem_flatten.2 ⟨row, hrow, hcount⟩)

lemma nonneg_col (h : t.Shaped) {col : List Int} (hcol : col ∈ t.transpose) :
    ∀ count ∈ col, 0 ≤ count := fun count hcount =>
  h.nonneg count (h.rectangular.flatten_transpose_perm.mem_iff.1
    (List.mem_flatten.2 ⟨col, hcol, hcount⟩))

/-- There is a first row, and there are enough rows and columns to take one from. -/
lemma degreesOfFreedom_eq_ok {α : Type} (h : t.Shaped) :
    t.degreesOfFreedom = (.ok ((t.length - 1) * (t.width - 1)) : Except (Error α) Nat) := by
  have hrows : 1 ≤ t.length := Nat.le_of_succ_le h.two_le_length
  have hcols : 1 ≤ t.width := Nat.le_of_succ_le h.two_le_width
  obtain ⟨row, hrow, hwidth⟩ := exists_row_zero (α := α) hrows
  rw [degreesOfFreedom, bind_ok (subtract_eq_ok_iff.2 (Nat.sub_add_cancel hrows)), bind_ok hrow,
    hwidth, bind_ok (subtract_eq_ok_iff.2 (Nat.sub_add_cancel hcols))]
  rfl

lemma freedom_pos (h : t.Shaped) : 0 < (t.length - 1) * (t.width - 1) :=
  Nat.mul_pos (Nat.sub_pos_of_lt h.two_le_length) (Nat.sub_pos_of_lt h.two_le_width)

end Shaped

section Validate

variable {α : Type} [Arithmetic α] {t : Table}

/-- The independence test accepts a table. -/
def Accepted (α : Type) [Arithmetic α] (t : Table) : Prop := ∃ m : Margins α, t.validate = .ok m

lemma validate_eq_ok_iff {m : Margins α} :
    t.validate = .ok m ↔
      (t.Shaped ∧ (∀ row ∈ t, (countSum row == (0.0 : α)) = false) ∧
        ∀ col ∈ t.transpose, (countSum col == (0.0 : α)) = false) ∧ .ofTable t = m := by
  have hsums : Check.marginals (Margins.ofTable t : Margins α).rows (Margins.ofTable t).cols =
      .ok () ↔ (∀ row ∈ t, (countSum row == (0.0 : α)) = false) ∧
        ∀ col ∈ t.transpose, (countSum col == (0.0 : α)) = false := by
    rw [Check.marginals_eq_ok_iff, Margins.ofTable, colSums_eq_rowSums_transpose]
    simp only [rowSums, List.forall_mem_map]
  rw [validate, check_bind_eq_ok_iff, check_bind_eq_ok_iff, check_bind_eq_ok_iff, hsums,
    Check.rectangular_eq_ok_iff, Check.cells_eq_ok_iff, pure_eq_ok_iff]
  constructor
  · rintro ⟨⟨hlength, hwidth, hrect⟩, hnonneg, hpos, hm⟩
    exact ⟨⟨⟨hlength, hwidth, hrect, hnonneg⟩, hpos⟩, hm⟩
  · rintro ⟨⟨⟨hlength, hwidth, hrect, hnonneg⟩, hpos⟩, hm⟩
    exact ⟨⟨hlength, hwidth, hrect⟩, hnonneg, hpos, hm⟩

lemma Accepted.shaped (h : t.Accepted α) : t.Shaped := by
  obtain ⟨m, hm⟩ := h
  exact (validate_eq_ok_iff.1 hm).1.1

lemma Accepted.validate_eq (h : t.Accepted α) : t.validate = .ok (.ofTable t : Margins α) := by
  obtain ⟨m, hm⟩ := h
  rw [hm, ← (validate_eq_ok_iff.1 hm).2]

lemma Accepted.statistic_eq (h : t.Accepted α) :
    t.statistic = .ok (t.statisticOf (.ofTable t : Margins α)) := by
  rw [statistic, h.validate_eq]
  rfl

lemma accepted_of_statistic_eq_ok {g : α} (h : t.statistic = .ok g) : t.Accepted α := by
  obtain ⟨m, hm, -⟩ := bind_eq_ok_iff.1 h
  exact ⟨m, hm⟩

end Validate

/-! ### Totals -/

section Totals

/-- The sum of each row. -/
def rowTotals (t : Table) : List Int := t.map List.sum

/-- The sum of each column. -/
def colTotals (t : Table) : List Int := t.transpose.rowTotals

/-- The number of observations. -/
def total (t : Table) : Int := t.flatten.sum

variable {s t : Table}

lemma sum_rowTotals (t : Table) : t.rowTotals.sum = t.total := by
  rw [rowTotals, total, List.sum_flatten]

lemma Rectangular.sum_colTotals (h : t.Rectangular) : t.colTotals.sum = t.total := by
  rw [colTotals, sum_rowTotals, total, h.flatten_transpose_perm.sum_eq, total]

lemma Rectangular.colTotals_transpose (h : t.Rectangular) (hw : 0 < t.width) :
    t.transpose.colTotals = t.rowTotals := by
  rw [colTotals, h.transpose_transpose hw]

lemma sum_map_mul (m : Int) (counts : List Int) :
    (counts.map (m * ·)).sum = m * counts.sum := by
  rw [List.sum_map_mul_left, List.map_id']

lemma rowTotals_multiply (m : Int) (t : Table) :
    (t.multiply m).rowTotals = t.rowTotals.map (m * ·) := by
  rw [rowTotals, multiply, rowTotals, List.map_map, List.map_map]
  exact List.map_congr_left fun row _ => sum_map_mul m row

lemma colTotals_multiply (m : Int) (t : Table) :
    (t.multiply m).colTotals = t.colTotals.map (m * ·) := by
  rw [colTotals, transpose_multiply, rowTotals_multiply, colTotals]

lemma total_multiply (m : Int) (t : Table) : (t.multiply m).total = m * t.total := by
  rw [total, flatten_multiply, sum_map_mul, total]

end Totals

namespace WellFormed

variable {s t : Table}

lemma ne_nil (h : t.WellFormed) : t ≠ [] := by
  rintro rfl
  exact absurd h.two_le_length (by decide)

lemma width_pos (h : t.WellFormed) : 0 < t.width := by
  have := h.two_le_width
  omega

lemma transpose (h : t.WellFormed) : t.transpose.WellFormed where
  two_le_length := by rw [length_transpose]; exact h.two_le_width
  two_le_width := by rw [h.rectangular.width_transpose h.width_pos]; exact h.two_le_length
  rectangular := h.rectangular.transpose
  nonneg count hcount := h.nonneg count (h.rectangular.flatten_transpose_perm.mem_iff.1 hcount)
  row_pos := h.col_pos
  col_pos := by rw [h.rectangular.transpose_transpose h.width_pos]; exact h.row_pos

lemma perm (h : t.WellFormed) (hperm : s.Perm t) : s.WellFormed := by
  have hrows : ∀ row ∈ s, row.length = t.width := fun row hrow =>
    h.rectangular row (hperm.mem_iff.1 hrow)
  have hne : s ≠ [] := fun hnil => h.ne_nil (by simpa [hnil] using hperm)
  have hwidth : s.width = t.width := width_eq hrows hne
  refine ⟨⟨?_, ?_, ?_, ?_⟩, ?_, ?_⟩
  · rw [hperm.length_eq]
    exact h.two_le_length
  · rw [hwidth]
    exact h.two_le_width
  · exact fun row hrow => (hrows row hrow).trans hwidth.symm
  · exact fun count hcount => h.nonneg count (hperm.flatten.mem_iff.1 hcount)
  · exact fun row hrow => h.row_pos row (hperm.mem_iff.1 hrow)
  · intro col hcol
    obtain ⟨j, hj, rfl⟩ := mem_transpose_iff.1 hcol
    rw [(column_perm hperm j).sum_eq]
    exact h.col_pos _ (mem_transpose_iff.2 ⟨j, hwidth ▸ hj, rfl⟩)

/-- A positive factor changes no sign. -/
lemma multiply_iff {m : Int} (hm : 0 < m) : (t.multiply m).WellFormed ↔ t.WellFormed := by
  have hlength : (t.multiply m).length = t.length := List.length_map _
  have hrect : (t.multiply m).Rectangular ↔ t.Rectangular := by
    rw [Rectangular, width_multiply, multiply, List.forall_mem_map]
    simp only [List.length_map, Rectangular]
  have hnonneg : (∀ count ∈ (t.multiply m).flatten, 0 ≤ count) ↔
      ∀ count ∈ t.flatten, 0 ≤ count := by
    simp only [flatten_multiply, List.forall_mem_map, mul_nonneg_iff_of_pos_left hm]
  have hpos (t : Table) : (∀ row ∈ t.multiply m, 0 < row.sum) ↔ ∀ row ∈ t, 0 < row.sum := by
    simp only [multiply, List.forall_mem_map, sum_map_mul, mul_pos_iff_of_pos_left hm]
  constructor
  · rintro ⟨⟨h1, h2, h3, h4⟩, h5, h6⟩
    rw [transpose_multiply] at h6
    exact ⟨⟨hlength ▸ h1, width_multiply m t ▸ h2, hrect.1 h3, hnonneg.1 h4⟩, (hpos t).1 h5,
      (hpos t.transpose).1 h6⟩
  · rintro ⟨⟨h1, h2, h3, h4⟩, h5, h6⟩
    refine ⟨⟨hlength ▸ h1, (width_multiply m t).symm ▸ h2, hrect.2 h3, hnonneg.2 h4⟩, (hpos t).2 h5,
      ?_⟩
    rw [transpose_multiply]
    exact (hpos t.transpose).2 h6

end WellFormed

end LikelihoodRatio.Table
