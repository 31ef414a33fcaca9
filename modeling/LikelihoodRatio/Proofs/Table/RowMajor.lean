/-
# The statistic in row-major order

The statistic of a table and the expected counts are computed by two loops that know nothing of
each other.  Both run over the rows and in each row over the columns, so that the statistic is that
of the cells in row-major order against the expected counts in row-major order (`RowMajor`).  The
same terms are added in the same order, which makes the two equal in any arithmetic that tells the
number of observations from zero (`Accepted.rowMajor`).

Rounded sums of counts are told from zero, however large the counts are
(`total_beq_zero_eq_false`), since such a sum vanishes only if all its terms do.
-/
import LikelihoodRatio.Proofs.Table.Failures
import LikelihoodRatio.Proofs.Table.Flat

namespace LikelihoodRatio.Table

open Binary64

/-! ### Expected counts -/

section Arithmetic

variable {α : Type} [Arithmetic α] {t : Table}

lemma length_rows_ofTable (t : Table) : (Margins.ofTable t : Margins α).rows.length = t.length :=
  List.length_map _

lemma length_cols_ofTable (t : Table) : (Margins.ofTable t : Margins α).cols.length = t.width := by
  rw [Margins.ofTable, colSums_eq_rowSums_transpose]
  exact (List.length_map _).trans t.length_transpose

/-- There are as many expected counts in a row as there are cells. -/
lemma Rectangular.map_length_expected (h : t.Rectangular) :
    (Margins.ofTable t : Margins α).expected.map List.length = t.map List.length := by
  calc (Margins.ofTable t : Margins α).expected.map List.length
      = (Margins.ofTable t : Margins α).rows.map fun _ => t.width := by
        rw [Margins.expected, List.map_map]
        refine List.map_congr_left fun r _ => ?_
        rw [Function.comp_apply, List.length_map, length_cols_ofTable]
    _ = t.map fun _ => t.width := by rw [List.map_const', length_rows_ofTable, List.map_const']
    _ = t.map List.length := List.map_congr_left fun row hrow => (h row hrow).symm

lemma Accepted.expectedCounts_eq (h : t.Accepted α) :
    t.expectedCounts = .ok (Margins.ofTable t : Margins α).expected := by
  rw [expectedCounts, h.validate_eq]
  rfl

/-- The statistic of a table is that of its cells against the expected counts, both in row-major
order. -/
def RowMajor (α : Type) [Arithmetic α] (t : Table) : Prop :=
  ∃ expected : List (List α), t.expectedCounts = .ok expected ∧
    expected.map List.length = t.map List.length ∧
    t.statistic = .ok (LikelihoodRatio.statistic t.flatten expected.flatten)

/-- The two loops agree as soon as the number of observations is told from zero. -/
lemma Accepted.rowMajor (h : t.Accepted α)
    (htotal : ((Margins.ofTable t : Margins α).total == 0.0) = false) : t.RowMajor α := by
  have hrect := h.shaped.rectangular
  refine ⟨_, h.expectedCounts_eq, hrect.map_length_expected, ?_⟩
  have hcols : ∀ row ∈ t, row.length = (Margins.ofTable t : Margins α).cols.length := by
    intro row hrow
    rw [length_cols_ofTable, hrect row hrow]
  rw [h.statistic_eq, statisticOf_eq_statistic t.length_rows_ofTable hcols htotal]

end Arithmetic

/-! ### The number of observations -/

/-- The rounded number of observations of an accepted table is told from zero. -/
lemma total_beq_zero_eq_false (ln : Float → Float) (t : Table) : letI := binary64 ln
    t.Accepted Float → ((Margins.ofTable t : Margins Float).total == 0.0) = false := by
  let := binary64 ln
  rintro ⟨m, hm⟩
  obtain ⟨⟨hshaped, hrows, -⟩, -⟩ := validate_eq_ok_iff.1 hm
  have hzero : (0.0 : Float) ≤ 0.0 := by decide +kernel
  have hcount (row : List Int) (hrow : row ∈ t) : (0.0 : Float) ≤ countSum row :=
    (foldl_add_nonneg hzero (List.forall_mem_map.2 fun count hcount =>
      zero_le_ofInt (hshaped.nonneg_row hrow count hcount))).1
  obtain ⟨hsum, hpos⟩ := foldl_add_nonneg hzero (List.forall_mem_map.2 hcount)
  refine (beq_zero_eq_false_iff hsum).2 (hpos.2 (.inr ?_))
  -- Already the first row holds something.
  obtain ⟨row, rows, rfl⟩ : ∃ row rows, t = row :: rows :=
    List.exists_cons_of_ne_nil (List.length_pos_iff.1 (two_pos.trans_le hshaped.two_le_length))
  have hrow : row ∈ row :: rows := List.mem_cons_self
  exact ⟨_, List.mem_map_of_mem hrow, (beq_zero_eq_false_iff (hcount row hrow)).1 (hrows row hrow)⟩

/-- **The statistic in row-major order.**  The statistic of an accepted table is that of its cells
in row-major order against the expected counts in row-major order, whatever is lost by rounding and
whatever the logarithm is.  It is in every other arithmetic as well, where the number of
observations is told from zero. -/
theorem statistic_rowMajor (t : Table) :
    (∀ ln : Float → Float, letI := binary64 ln
      t.Accepted Float → t.RowMajor Float) ∧
    ∀ (α : Type) [Arithmetic α], t.Accepted α →
      ((Margins.ofTable t : Margins α).total == 0.0) = false → t.RowMajor α := by
  refine ⟨?_, fun α _ h htotal => h.rowMajor htotal⟩
  intro ln h
  let := binary64 ln
  exact h.rowMajor (total_beq_zero_eq_false ln t h)

/-- A table with empty cells. -/
theorem statistic_rowMajor_sparse :
    Accepted Float [[40, 0, 4], [91, 1, 2], [60, 2, 0]] ∧
      RowMajor Float [[40, 0, 4], [91, 1, 2], [60, 2, 0]] ∧
      ((Margins.ofTable [[40, 0, 4], [91, 1, 2], [60, 2, 0]] : Margins Float).total == 0.0) =
        false ∧
      ∃ expected : List (List Float),
        expectedCounts [[40, 0, 4], [91, 1, 2], [60, 2, 0]] = .ok expected ∧
          statistic [[40, 0, 4], [91, 1, 2], [60, 2, 0]] =
            .ok (LikelihoodRatio.statistic [40, 0, 4, 91, 1, 2, 60, 2, 0] expected.flatten) := by
  have h : Accepted Float [[40, 0, 4], [91, 1, 2], [60, 2, 0]] :=
    accepted_iff_occupied.2 ⟨by decide, by decide, by decide⟩
  have htotal : ((Margins.ofTable [[40, 0, 4], [91, 1, 2], [60, 2, 0]] : Margins Float).total ==
      0.0) = false := by decide +kernel
  obtain ⟨hrounded, hany⟩ := statistic_rowMajor [[40, 0, 4], [91, 1, 2], [60, 2, 0]]
  obtain ⟨expected, hexpected, -, hstatistic⟩ := hany Float h htotal
  exact ⟨h, hrounded Float.log h, htotal, expected, hexpected, hstatistic⟩

end LikelihoodRatio.Table
