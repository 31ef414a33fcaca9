/-
# How small and how large the statistic is

In exact arithmetic the statistic of an accepted table is not negative, by the inequality of Gibbs,
and zero only if every cell is as expected.  It is at most `2 N ln k` for `N` observations in `k`
rows or columns, whichever are fewer: the cells say no more of the columns than the columns
themselves (`lnMass_le`), and those say the most if all columns have the same sum (`lnMass_ge`).
The bound for the rows is that for the columns of the transposed table.
-/
import LikelihoodRatio.Proofs.Exact.Gibbs
import LikelihoodRatio.Proofs.Exact.Symmetry
import LikelihoodRatio.Proofs.Table.Flat

namespace LikelihoodRatio

/-! ### Sums of `x ln x` -/

section LnMass

variable {xs : List Int}

lemma lnMass_le_of_le {S : Int} (h : ∀ x ∈ xs, 0 ≤ x ∧ x ≤ S) :
    lnMass xs ≤ xs.sum * Real.log S := by
  induction xs with
  | nil => simp [lnMass]
  | cons x xs ih =>
    have hrest := ih fun y hy => h y (List.mem_cons_of_mem _ hy)
    obtain ⟨hx, hxS⟩ := h x List.mem_cons_self
    have hterm : (x : ℝ) * Real.log x ≤ x * Real.log S := by
      rcases hx.eq_or_lt with rfl | hpos
      · simp
      · have hpos' : (0 : ℝ) < x := Int.cast_pos.2 hpos
        exact mul_le_mul_of_nonneg_left (Real.log_le_log hpos' (Int.cast_le.2 hxS)) hpos'.le
    simp only [lnMass, List.map_cons, List.sum_cons, Int.cast_add] at hrest ⊢
    linarith

/-- Counts that are put together have a larger sum of `x ln x`. -/
lemma lnMass_le (h : ∀ x ∈ xs, 0 ≤ x) : lnMass xs ≤ xs.sum * Real.log xs.sum := by
  refine lnMass_le_of_le ?_
  intro x hx
  exact ⟨h x hx, List.single_le_sum h x hx⟩

lemma sum_terms_const (xs : List Int) {e : ℝ} (he : e ≠ 0) :
    (xs.map fun x => term x e).sum = lnMass xs - xs.sum * Real.log e := by
  induction xs with
  | nil => simp [lnMass]
  | cons x xs ih =>
    simp only [lnMass, List.map_cons, List.sum_cons, Int.cast_add] at ih ⊢
    rw [ih, term_eq_sub x he]
    ring

/-- Counts that are spread evenly have the smallest sum of `x ln x`. -/
lemma lnMass_ge (h : ∀ x ∈ xs, 0 ≤ x) (hsum : 0 < xs.sum) :
    xs.sum * Real.log xs.sum - lnMass xs ≤ xs.sum * Real.log xs.length := by
  have hS : (0 : ℝ) < xs.sum := Int.cast_pos.2 hsum
  have hne : xs ≠ [] := by
    rintro rfl
    exact absurd hsum (by decide)
  have hk : (0 : ℝ) < xs.length := Nat.cast_pos.2 (List.length_pos_iff.2 hne)
  -- The inequality of Gibbs, with the same value expected of all counts.
  have heven : (0 : ℝ) < xs.sum / xs.length := div_pos hS hk
  have hadmits : List.Forall₂ Admits xs (xs.map fun _ => (xs.sum : ℝ) / xs.length) := by
    refine List.forall₂_map_right_iff.2 (List.forall₂_same.2 ?_)
    intro x hx
    exact ⟨h x hx, heven.le, fun hzero => absurd hzero heven.ne'⟩
  have hexpected : (xs.map fun _ => (xs.sum : ℝ) / xs.length).sum = xs.sum := by
    rw [List.map_const', List.sum_replicate, nsmul_eq_mul]
    field_simp
  have hgibbs := sum_sub_sum_le hadmits
  rw [hexpected, ← Int.cast_list_sum, sub_self, List.zipWith_map_right, List.zipWith_self,
    sum_terms_const xs heven.ne', Real.log_div hS.ne' hk.ne'] at hgibbs
  linarith

end LnMass

namespace Table

variable {t : Table}

/-- What is expected of the cells of a row. -/
noncomputable def expectedRow (t : Table) (row : List Int) : List ℝ :=
  t.colTotals.map fun c : Int => (row.sum : ℝ) * c / t.total

lemma length_colTotals (t : Table) : t.colTotals.length = t.width := by
  rw [colTotals, rowTotals, List.length_map, length_transpose]

lemma total_ofTable (t : Table) : (Margins.ofTable t : Margins ℝ).total = t.total := by
  rw [total_real, margins_real, ← Int.cast_list_sum, sum_rowTotals]

lemma expected_ofTable (t : Table) :
    (Margins.ofTable t : Margins ℝ).expected = t.map t.expectedRow := by
  rw [Margins.expected, total_ofTable, margins_real, rowTotals, List.map_map, List.map_map]
  refine List.map_congr_left fun row _ => ?_
  rw [Function.comp_apply, Function.comp_apply, List.map_map, expectedRow]
  rfl

namespace WellFormed

lemma length_expectedRow (h : t.WellFormed) :
    ∀ row ∈ t, row.length = (t.expectedRow row).length := by
  intro row hrow
  rw [expectedRow, List.length_map, length_colTotals, h.rectangular row hrow]

/-- The statistic compares the cells with what is expected of them. -/
lemma entropyForm_eq_statistic (h : t.WellFormed) :
    t.entropyForm = LikelihoodRatio.statistic t.flatten (t.map t.expectedRow).flatten := by
  rw [← h.statisticOf_eq_entropyForm, statisticOf_eq_statistic, expected_ofTable]
  · rw [margins_real, rowTotals, List.length_map, List.length_map]
  · intro row hrow
    rw [margins_real, List.length_map, length_colTotals, h.rectangular row hrow]
  · rw [total_ofTable, zero_real, beq_eq_false_iff_ne]
    exact Int.cast_ne_zero.2 h.total_pos.ne'

lemma expectedRow_pos (h : t.WellFormed) {row : List Int} (hrow : row ∈ t) :
    ∀ e ∈ t.expectedRow row, 0 < e := by
  refine List.forall_mem_map.2 fun c hc => ?_
  have hr : (0 : ℝ) < row.sum := Int.cast_pos.2 (h.row_pos row hrow)
  have hc' : (0 : ℝ) < c := Int.cast_pos.2 (h.colTotals_pos c hc)
  have hN : (0 : ℝ) < t.total := Int.cast_pos.2 h.total_pos
  positivity

lemma admits (h : t.WellFormed) :
    List.Forall₂ Admits t.flatten (t.map t.expectedRow).flatten := by
  refine (forall₂_flatten_map_iff h.length_expectedRow).2 fun row hrow => ?_
  refine List.forall₂_iff_zip.2 ⟨h.length_expectedRow row hrow, fun {x e} hcell => ?_⟩
  obtain ⟨hx, he⟩ := List.of_mem_zip hcell
  have hpos := h.expectedRow_pos hrow e he
  exact ⟨h.nonneg_row hrow x hx, hpos.le, fun hzero => absurd hzero hpos.ne'⟩

/-- Each row is expected to have the sum that it has. -/
lemma sum_expectedRow (h : t.WellFormed) (row : List Int) :
    (t.expectedRow row).sum = row.sum := by
  have hN : (t.total : ℝ) ≠ 0 := Int.cast_ne_zero.2 h.total_pos.ne'
  have hcols : (t.colTotals.map (Int.cast : Int → ℝ)).sum = t.total := by
    rw [← Int.cast_list_sum, h.rectangular.sum_colTotals]
  have hfactor : t.expectedRow row =
      t.colTotals.map fun c : Int => (row.sum : ℝ) / t.total * (c : ℝ) :=
    List.map_congr_left fun c _ => by ring
  rw [hfactor, List.sum_map_mul_left, hcols]
  field_simp

lemma sum_expected (h : t.WellFormed) :
    (t.map t.expectedRow).flatten.sum = (t.flatten.map (Int.cast : Int → ℝ)).sum := by
  rw [List.sum_flatten, List.map_map, ← Int.cast_list_sum, List.sum_flatten, Int.cast_list_sum,
    List.map_map]
  exact congrArg List.sum (List.map_congr_left fun row _ => h.sum_expectedRow row)

lemma entropyForm_nonneg (h : t.WellFormed) : 0 ≤ t.entropyForm := by
  rw [h.entropyForm_eq_statistic]
  exact statistic_nonneg h.admits h.sum_expected

/-- A row is as expected if each of its cells is. -/
lemma row_eq_expected_iff (h : t.WellFormed) {row : List Int} (hrow : row ∈ t) :
    List.Forall₂ (fun (x : Int) (e : ℝ) => x = e) row (t.expectedRow row) ↔
      ∀ (j : Nat) (x : Int), row[j]? = some x → x * t.total = row.sum * (t.column j).sum := by
  have hN : (t.total : ℝ) ≠ 0 := Int.cast_ne_zero.2 h.total_pos.ne'
  have hcell (j : Nat) (x : Int) :
      (x : ℝ) = (row.sum : ℝ) * ((t.column j).sum : Int) / t.total ↔
        x * t.total = row.sum * (t.column j).sum := by
    rw [eq_div_iff hN]
    exact_mod_cast Iff.rfl
  have hrow' : t.expectedRow row = (List.range t.width).map fun j =>
      (row.sum : ℝ) * ((t.column j).sum : Int) / t.total := by
    rw [expectedRow, colTotals, rowTotals, Table.transpose, List.map_map, List.map_map]
    rfl
  rw [List.forall₂_iff_get, hrow']
  constructor
  · rintro ⟨hlength, hcells⟩ j x hx
    obtain ⟨hj, rfl⟩ := List.getElem?_eq_some_iff.1 hx
    have := hcells j hj (hlength ▸ hj)
    rw [List.get_eq_getElem, List.get_eq_getElem, List.getElem_map, List.getElem_range] at this
    exact (hcell j _).1 this
  · intro hcells
    have hlength := h.length_expectedRow row hrow
    rw [hrow'] at hlength
    refine ⟨hlength, fun j hj hj' => ?_⟩
    rw [List.get_eq_getElem, List.get_eq_getElem, List.getElem_map, List.getElem_range]
    exact (hcell j _).2 (hcells j _ (List.getElem?_eq_getElem hj))

/-- The statistic vanishes only if every cell is as expected. -/
lemma entropyForm_eq_zero_iff (h : t.WellFormed) :
    t.entropyForm = 0 ↔
      ∀ row ∈ t, ∀ (j : Nat) (x : Int), row[j]? = some x →
        x * t.total = row.sum * (t.column j).sum := by
  rw [h.entropyForm_eq_statistic, statistic_eq_zero_iff h.admits h.sum_expected,
    forall₂_flatten_map_iff h.length_expectedRow]
  exact forall₂_congr fun row hrow => h.row_eq_expected_iff hrow

/-- The cells say no more of the columns than the columns themselves. -/
lemma entropyForm_le_log_width (h : t.WellFormed) :
    t.entropyForm ≤ 2 * t.total * Real.log t.width := by
  have hcells : lnMass t.flatten ≤ lnMass t.rowTotals := by
    rw [lnMass_flatten, lnMass_rowTotals]
    exact List.sum_le_sum fun row hrow => lnMass_le (h.nonneg_row hrow)
  have hsum : t.colTotals.sum = t.total := h.rectangular.sum_colTotals
  have hcols := lnMass_ge (fun c hc => (h.colTotals_pos c hc).le) (hsum ▸ h.total_pos)
  rw [hsum, length_colTotals] at hcols
  rw [entropyForm]
  linarith

/-- The columns of the transposed table are the rows. -/
lemma entropyForm_le_log_length (h : t.WellFormed) :
    t.entropyForm ≤ 2 * t.total * Real.log t.length := by
  have hle := h.transpose.entropyForm_le_log_width
  have htotal : t.transpose.total = t.total := h.rectangular.flatten_transpose_perm.sum_eq
  rwa [h.rectangular.entropyForm_transpose h.width_pos, htotal,
    h.rectangular.width_transpose h.width_pos] at hle

end WellFormed

end Table

/-- **How small and how large the statistic is.**  In exact arithmetic the statistic of an accepted
table is at least zero, and at most `2 N ln k` for the smaller number `k` of rows or columns.  It is
zero only if each cell times `N` is the product of its row sum and its column sum. -/
theorem statistic_bounded (t : Table) (h : t.Accepted ℝ) :
    ∃ g : ℝ, t.statistic = .ok g ∧ 0 ≤ g ∧
      g ≤ 2 * t.total * Real.log (min t.length t.width : Nat) ∧
      (g = 0 ↔ ∀ row ∈ t, ∀ (j : Nat) (x : Int), row[j]? = some x →
        x * t.total = row.sum * (t.column j).sum) := by
  have hwf := Table.accepted_real_iff.1 h
  refine ⟨t.entropyForm, hwf.statistic_real, hwf.entropyForm_nonneg, ?_,
    hwf.entropyForm_eq_zero_iff⟩
  rcases min_choice t.length t.width with hmin | hmin
  · rw [hmin]
    exact hwf.entropyForm_le_log_length
  · rw [hmin]
    exact hwf.entropyForm_le_log_width

/-- Two rows in the same proportions. -/
theorem statistic_bounded_proportional :
    Table.Accepted ℝ [[10, 20, 30], [20, 40, 60]] ∧
      Table.statistic [[10, 20, 30], [20, 40, 60]] = .ok (0 : ℝ) := by
  have hwf : Table.WellFormed [[10, 20, 30], [20, 40, 60]] := by decide
  have haccepted := Table.accepted_real_iff.2 hwf
  obtain ⟨g, hg, -, -, hzero⟩ := statistic_bounded [[10, 20, 30], [20, 40, 60]] haccepted
  have hcells : ∀ row ∈ ([[10, 20, 30], [20, 40, 60]] : Table), ∀ j < row.length, ∀ x ∈ row[j]?,
      x * Table.total [[10, 20, 30], [20, 40, 60]] =
        row.sum * (Table.column [[10, 20, 30], [20, 40, 60]] j).sum := by
    decide
  rw [hzero.2 fun row hrow j x hx =>
    hcells row hrow j (List.getElem?_eq_some_iff.1 hx).1 x hx] at hg
  exact ⟨haccepted, hg⟩

end LikelihoodRatio
