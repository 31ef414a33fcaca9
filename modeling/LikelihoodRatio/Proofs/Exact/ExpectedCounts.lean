/-
# The expected counts as a distribution to fit

In exact arithmetic the counts that are expected of the cells of a table have the margins that the
table has (`WellFormed.sameMargins_expected`).  So they have its total too, and a test of fit takes
them as they are: it does not rescale them, and finds between them and the cells the statistic of
independence (`fit_expectedCounts`).
-/
import LikelihoodRatio.Proofs.Exact.Bounds
import LikelihoodRatio.Proofs.Exact.Fit
import LikelihoodRatio.Proofs.Table.RowMajor

namespace LikelihoodRatio

namespace Table

variable {t : Table}

/-- Numbers in the shape of a table that have the sums of its rows and of its columns. -/
structure SameMargins (t : Table) (expected : List (List ℝ)) : Prop where
  shape : expected.map List.length = t.map List.length
  rows : expected.map List.sum = t.map fun row => (row.sum : ℝ)
  cols : ∀ j < t.width, (expected.filterMap (·[j]?)).sum = (t.column j).sum

namespace WellFormed

/-- Each column is expected to have the sum that it has. -/
lemma sum_expectedColumn (h : t.WellFormed) {j : Nat} (hj : j < t.width) :
    ((t.map t.expectedRow).filterMap (·[j]?)).sum = (t.column j).sum := by
  have hN : (t.total : ℝ) ≠ 0 := Int.cast_ne_zero.2 h.total_pos.ne'
  have hcol : t.colTotals[j]? = some (t.column j).sum := by
    rw [colTotals, rowTotals, List.getElem?_map, getElem?_transpose hj, Option.map_some]
  have hcell (row : List Int) :
      (t.expectedRow row)[j]? = some ((row.sum : ℝ) * ((t.column j).sum / t.total)) := by
    rw [expectedRow, List.getElem?_map, hcol, Option.map_some, mul_div_assoc]
  have hrows : (t.map fun row => ((row.sum : Int) : ℝ)).sum = t.total := by
    rw [← sum_rowTotals, rowTotals, Int.cast_list_sum, List.map_map]
    rfl
  simp only [List.filterMap_map, Function.comp_def, hcell]
  rw [← Function.comp_def some, List.filterMap_eq_map, List.sum_map_mul_right, hrows]
  field_simp

/-- What is expected of the cells has the margins of the table. -/
lemma sameMargins_expected (h : t.WellFormed) : t.SameMargins (t.map t.expectedRow) where
  shape := by
    rw [List.map_map]
    exact List.map_congr_left fun row hrow => (h.length_expectedRow row hrow).symm
  rows := by
    rw [List.map_map]
    exact List.map_congr_left fun row _ => h.sum_expectedRow row
  cols _ hj := h.sum_expectedColumn hj

lemma expected_pos (h : t.WellFormed) : ∀ e ∈ (t.map t.expectedRow).flatten, 0 < e := by
  intro e he
  obtain ⟨_, hmem, he⟩ := List.mem_flatten.1 he
  obtain ⟨row, hrow, rfl⟩ := List.mem_map.1 hmem
  exact h.expectedRow_pos hrow e he

/-! ### The test of fit -/

/-- Already the first row has two cells. -/
lemma two_le_length_flatten (h : t.WellFormed) : 2 ≤ t.flatten.length := by
  obtain ⟨row, rows, rfl⟩ := List.exists_cons_of_ne_nil h.ne_nil
  have hrow : 2 ≤ row.length := h.two_le_width
  rw [List.flatten_cons, List.length_append]
  omega

/-- The test of fit accepts the expected counts together with the cells. -/
lemma comparable_expected (h : t.WellFormed) :
    Fit.Comparable (t.map t.expectedRow).flatten t.flatten where
  two_le_length := by
    rw [List.length_flatten, h.sameMargins_expected.shape, ← List.length_flatten]
    exact h.two_le_length_flatten
  length_eq := by
    rw [List.length_flatten, List.length_flatten, h.sameMargins_expected.shape]
  expected_pos e he := ⟨rfl, zero_real ▸ h.expected_pos e he⟩
  observed_nonneg := h.nonneg

lemma sum_expected_eq_total (h : t.WellFormed) : (t.map t.expectedRow).flatten.sum = t.total := by
  rw [h.sum_expected, ← Int.cast_list_sum, total]

/-- The expected counts have the total of the table, and nothing is to be rescaled. -/
lemma not_rescales_expected (h : t.WellFormed) :
    ¬Fit.Rescales (t.map t.expectedRow).flatten (countSum t.flatten) := by
  rw [Fit.rescales_real_iff, h.sum_expected, countSum_real, sub_self, abs_zero, Fit.tolerance_real]
  norm_num

lemma fit_statistic_expected (h : t.WellFormed) :
    Fit.statistic (t.map t.expectedRow).flatten t.flatten = .ok t.entropyForm := by
  have hdata := h.comparable_expected
  have hrescaled : Fit.rescaled (t.map t.expectedRow).flatten t.flatten =
      (t.map t.expectedRow).flatten := by
    rw [Fit.rescaled, h.sum_expected_eq_total, total,
      div_self (Int.cast_ne_zero.2 h.total_pos.ne' : ((t.flatten.sum : Int) : ℝ) ≠ 0)]
    simp only [mul_one, List.map_id']
  rw [hdata.statistic_eq, hdata.statisticOf_eq_rescaled_iff.2 (.inr (.inr h.sum_expected_eq_total)),
    hrescaled, h.entropyForm_eq_statistic]

end WellFormed

/-- **The expected counts as a distribution to fit.**  In exact arithmetic the expected counts of an
accepted table are positive and have its shape, its row sums and its column sums.  The test of fit
accepts them for the cells of the table, does not rescale them, and has the statistic of
independence. -/
theorem fit_expectedCounts (t : Table) (h : t.Accepted ℝ) :
    ∃ (expected : List (List ℝ)) (g : ℝ),
      t.expectedCounts = .ok expected ∧ t.statistic = .ok g ∧
      (∀ e ∈ expected.flatten, 0 < e) ∧ t.SameMargins expected ∧
      Fit.validate expected.flatten t.flatten = .ok () ∧
      ¬Fit.Rescales expected.flatten (countSum t.flatten) ∧
      Fit.statistic expected.flatten t.flatten = .ok g := by
  have hwf := accepted_real_iff.1 h
  refine ⟨t.map t.expectedRow, t.entropyForm, ?_, hwf.statistic_real, hwf.expected_pos,
    hwf.sameMargins_expected, Fit.validate_eq_ok_iff.2 hwf.comparable_expected,
    hwf.not_rescales_expected, hwf.fit_statistic_expected⟩
  rw [h.expectedCounts_eq, expected_ofTable]

/-- A hundred observations, of which thirty are expected in the first row and seventy in the
second. -/
theorem fit_expectedCounts_hundred :
    Accepted ℝ [[10, 20], [30, 40]] ∧
      ∃ (expected : List (List ℝ)) (g : ℝ),
        expectedCounts [[10, 20], [30, 40]] = .ok expected ∧ expected.map List.sum = [30, 70] ∧
        statistic [[10, 20], [30, 40]] = .ok g ∧
        Fit.statistic expected.flatten [10, 20, 30, 40] = .ok g := by
  have hwf : WellFormed [[10, 20], [30, 40]] := by decide
  have haccepted := accepted_real_iff.2 hwf
  obtain ⟨expected, g, hexpected, hg, -, ⟨-, hrows, -⟩, -, -, hfit⟩ :=
    fit_expectedCounts [[10, 20], [30, 40]] haccepted
  refine ⟨haccepted, expected, g, hexpected, ?_, hg, hfit⟩
  rw [hrows]
  norm_num

end Table

end LikelihoodRatio
