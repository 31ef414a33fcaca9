/-
# The entropy form of the statistic

In exact arithmetic the statistic of a table is made of sums of `x ln x` over the cells, the rows
and the columns, and of `N ln N` for the total `N` (`WellFormed.statistic_real`).  The logarithm of
a cell's ratio splits into four logarithms.  Summed over the table, that of the row sum is counted
once for each observation in the row, and that of the column sum once for each observation in the
column, for which the order of the two sums is exchanged (`sum_weighted`).
-/
import LikelihoodRatio.Proofs.Exact.Basic
import LikelihoodRatio.Proofs.Table.Validity

namespace LikelihoodRatio

open Arithmetic

/-- The sum of `x ln x` over counts. -/
noncomputable def lnMass (counts : List Int) : ℝ :=
  (counts.map fun x : Int => x * Real.log x).sum

/-- A sum of counts, each with a weight. -/
noncomputable def weighted (counts : List Int) (weights : List ℝ) : ℝ :=
  (List.zipWith (fun (x : Int) (w : ℝ) => x * w) counts weights).sum

lemma countSum_eq_cast_sum (counts : List Int) : (countSum counts : ℝ) = (counts.sum : Int) := by
  rw [countSum_real, Int.cast_list_sum]

lemma lnMass_append (xs ys : List Int) : lnMass (xs ++ ys) = lnMass xs + lnMass ys := by
  simp only [lnMass, List.map_append, List.sum_append]

lemma lnMass_flatten (t : Table) : lnMass t.flatten = (t.map lnMass).sum := by
  induction t with
  | nil => rfl
  | cons row t ih => rw [List.flatten_cons, lnMass_append, ih, List.map_cons, List.sum_cons]

lemma lnMass_perm {xs ys : List Int} (h : xs.Perm ys) : lnMass xs = lnMass ys :=
  (h.map _).sum_eq

/-! ### Exchanging the sums -/

lemma weighted_map_add (js : List Nat) (f g : Nat → Int) (w : List ℝ) :
    weighted (js.map fun j => f j + g j) w = weighted (js.map f) w + weighted (js.map g) w := by
  induction js generalizing w with
  | nil => simp [weighted]
  | cons j js ih =>
    cases w with
    | nil => simp [weighted]
    | cons w₀ w =>
      have hrest := ih w
      simp only [weighted, List.map_cons, List.zipWith_cons_cons, List.sum_cons] at hrest ⊢
      rw [hrest]
      push_cast
      ring

/-- Weights that belong to the columns can be summed row by row or column by column. -/
lemma sum_weighted (t : Table) (w : List ℝ) (h : ∀ row ∈ t, row.length = w.length) :
    (t.map fun row => weighted row w).sum =
      weighted ((List.range w.length).map fun j => (t.column j).sum) w := by
  induction t with
  | nil =>
    have hzero (js : List Nat) (w : List ℝ) : weighted (js.map fun _ => 0) w = 0 := by
      induction js generalizing w with
      | nil => simp [weighted]
      | cons j js ih =>
        cases w with
        | nil => simp [weighted]
        | cons w₀ w => simpa [weighted] using ih w
    exact (hzero _ w).symm
  | cons row t ih =>
    have hrow : (List.range w.length).map (fun j => row[j]?.toList.sum) = row := by
      apply List.ext_getElem?
      intro j
      rw [← h row List.mem_cons_self]
      by_cases hj : j < row.length
      · simp [hj]
      · simp [hj]
    have hcolumn (j : Nat) :
        (Table.column (row :: t) j).sum = row[j]?.toList.sum + (Table.column t j).sum := by
      rw [Table.column_cons, List.sum_append]
    rw [List.map_cons, List.sum_cons, ih fun row hrow => h row (List.mem_cons_of_mem _ hrow)]
    simp only [hcolumn]
    rw [weighted_map_add, hrow]

namespace Table

variable {t : Table}

/-! ### Accepted tables -/

/-- The counts of a table of counts add up to something positive unless to nothing. -/
lemma countSum_beq_zero_eq_false_iff {counts : List Int} (h : ∀ count ∈ counts, 0 ≤ count) :
    ((countSum counts : ℝ) == 0.0) = false ↔ 0 < counts.sum := by
  have hnonneg : 0 ≤ counts.sum := List.sum_nonneg h
  rw [countSum_eq_cast_sum, zero_real, beq_eq_false_iff_ne, ne_eq, Int.cast_eq_zero]
  omega

/-- In exact arithmetic the independence test accepts the well-formed tables. -/
theorem accepted_real_iff : t.Accepted ℝ ↔ t.WellFormed := by
  constructor
  · rintro ⟨m, hm⟩
    obtain ⟨⟨hshaped, hrows, hcols⟩, -⟩ := validate_eq_ok_iff.1 hm
    refine ⟨hshaped, fun row hrow => ?_, fun col hcol => ?_⟩
    · exact (countSum_beq_zero_eq_false_iff (hshaped.nonneg_row hrow)).1 (hrows row hrow)
    · exact (countSum_beq_zero_eq_false_iff (hshaped.nonneg_col hcol)).1 (hcols col hcol)
  · intro h
    refine ⟨_, validate_eq_ok_iff.2 ⟨⟨h.toShaped, fun row hrow => ?_, fun col hcol => ?_⟩, rfl⟩⟩
    · exact (countSum_beq_zero_eq_false_iff (h.nonneg_row hrow)).2 (h.row_pos row hrow)
    · exact (countSum_beq_zero_eq_false_iff (h.nonneg_col hcol)).2 (h.col_pos col hcol)

/-! ### The entropy form -/

/-- The statistic by sums of `x ln x`. -/
noncomputable def entropyForm (t : Table) : ℝ :=
  2 * (lnMass t.flatten - lnMass t.rowTotals - lnMass t.colTotals +
    t.total * Real.log t.total)

/-- The terms of a row, with the logarithms of the ratios split up. -/
lemma sum_terms_row {row : List Int} {cols : List ℝ} {r N : ℝ} (hr : r ≠ 0) (hN : N ≠ 0)
    (hcols : ∀ c ∈ cols, c ≠ 0) (hlength : row.length = cols.length) :
    ((row.zip cols).map fun (x, c) => term x (r * c / N)).sum + row.sum * Real.log r +
        weighted row (cols.map Real.log) = lnMass row + row.sum * Real.log N := by
  induction row generalizing cols with
  | nil => simp [lnMass, weighted]
  | cons x row ih =>
    cases cols with
    | nil => simp at hlength
    | cons c cols =>
      have hc : c ≠ 0 := hcols c List.mem_cons_self
      have hrest := ih (fun c hc => hcols c (List.mem_cons_of_mem _ hc)) (by simpa using hlength)
      have hterm : term x (r * c / N) =
          x * Real.log x - x * Real.log r - x * Real.log c + x * Real.log N := by
        have hrc := mul_ne_zero hr hc
        rw [term_eq_sub x (div_ne_zero hrc hN), Real.log_div hrc hN, Real.log_mul hr hc]
        ring
      simp only [lnMass, weighted, List.zip_cons_cons, List.map_cons, List.sum_cons,
        List.zipWith_cons_cons, Int.cast_add] at hrest ⊢
      rw [hterm]
      linear_combination hrest

lemma margins_real (t : Table) :
    (Margins.ofTable t : Margins ℝ) =
      ⟨t.rowTotals.map Int.cast, t.colTotals.map Int.cast⟩ := by
  have hsums (t : Table) : (t.rowSums : List ℝ) = t.rowTotals.map Int.cast := by
    rw [rowSums, rowTotals, List.map_map]
    exact List.map_congr_left fun row _ => countSum_eq_cast_sum row
  rw [Margins.ofTable, colSums_eq_rowSums_transpose, hsums, hsums, colTotals]

lemma lnMass_rowTotals (t : Table) :
    lnMass t.rowTotals = (t.map fun row => row.sum * Real.log row.sum).sum := by
  rw [lnMass, rowTotals, List.map_map]
  rfl

/-- The logarithms of the column sums, each counted once for each observation. -/
lemma Rectangular.sum_weighted_log_colTotals (h : t.Rectangular) :
    (t.map fun row => weighted row ((t.colTotals.map Int.cast).map Real.log)).sum =
      lnMass t.colTotals := by
  have hlength : ((t.colTotals.map (Int.cast : Int → ℝ)).map Real.log).length = t.width := by
    simp [colTotals, rowTotals, length_transpose]
  have hcols : (List.range t.width).map (fun j => (t.column j).sum) = t.colTotals := by
    rw [colTotals, rowTotals, Table.transpose, List.map_map]
    rfl
  rw [sum_weighted t _ fun row hrow => (h row hrow).trans hlength.symm, hlength, hcols, weighted,
    lnMass, List.map_map, List.zipWith_map_right, List.zipWith_self]
  rfl

namespace WellFormed

lemma rowTotals_pos (h : t.WellFormed) : ∀ r ∈ t.rowTotals, 0 < r :=
  List.forall_mem_map.2 h.row_pos

lemma colTotals_pos (h : t.WellFormed) : ∀ c ∈ t.colTotals, 0 < c :=
  h.transpose.rowTotals_pos

lemma total_pos (h : t.WellFormed) : 0 < t.total := by
  rw [← sum_rowTotals]
  refine List.sum_pos _ h.rowTotals_pos ?_
  rw [rowTotals, ne_eq, List.map_eq_nil_iff]
  exact h.ne_nil

/-- The terms of the whole table. -/
lemma statisticOf_eq_entropyForm (h : t.WellFormed) :
    (t.statisticOf (.ofTable t) : ℝ) = t.entropyForm := by
  have htotal : (t.rowTotals.map (Int.cast : Int → ℝ)).sum = t.total := by
    rw [← Int.cast_list_sum, sum_rowTotals]
  have hN : (t.total : ℝ) ≠ 0 := Int.cast_ne_zero.2 h.total_pos.ne'
  have hcols : ∀ c ∈ t.colTotals.map (Int.cast : Int → ℝ), c ≠ 0 :=
    List.forall_mem_map.2 fun c hc => Int.cast_ne_zero.2 (h.colTotals_pos c hc).ne'
  have hwidth : (t.colTotals.map (Int.cast : Int → ℝ)).length = t.width := by
    rw [List.length_map, colTotals, rowTotals, List.length_map, length_transpose]
  have hzip : t.zip (t.rowTotals.map (Int.cast : Int → ℝ)) =
      t.map fun row => (row, ((row.sum : Int) : ℝ)) := by
    rw [rowTotals, List.map_map, List.zip_eq_zipWith, List.zipWith_map_right, List.zipWith_self]
    rfl
  have hrow : ∀ row ∈ t,
      ((row.zip (t.colTotals.map Int.cast)).map fun (x, c) =>
          term x ((row.sum : ℝ) * c / t.total)).sum + row.sum * Real.log row.sum +
          weighted row ((t.colTotals.map Int.cast).map Real.log) =
        lnMass row + row.sum * Real.log t.total :=
    fun row hrow => sum_terms_row (Int.cast_ne_zero.2 (h.row_pos row hrow).ne') hN hcols
      ((h.rectangular row hrow).trans hwidth.symm)
  have hsum := congrArg List.sum (List.map_congr_left hrow)
  rw [List.sum_map_add, List.sum_map_add, List.sum_map_add, List.sum_map_mul_right,
    ← lnMass_flatten, h.rectangular.sum_weighted_log_colTotals, ← lnMass_rowTotals] at hsum
  have hrows : (t.map fun row => ((row.sum : Int) : ℝ)).sum = t.total := by
    rw [← htotal, rowTotals, List.map_map]
    rfl
  rw [statisticOf_real, margins_real, entropyForm]
  simp only [htotal, hN, if_false, hzip, List.map_map, Function.comp_def]
  rw [hrows] at hsum
  linear_combination 2 * hsum

end WellFormed

end Table

end LikelihoodRatio
