/-
# Statistics of tables are finite numbers

A cell that holds something lies in a row and in a column whose sums are at least as large, so that
what is expected of it is neither too small nor too large (`between_expectedOf`).  Nothing is asked
of the other cells, and of the shape of the table: the statistic is finite for tables with empty
rows or columns too (`isFinite_statisticOf`), and so is the score of a fourfold table
(`Fourfold.isFinite_root`).
-/
import LikelihoodRatio.Proofs.Finite.Basic
import LikelihoodRatio.Proofs.Fourfold.Basic
import LikelihoodRatio.Proofs.Table.Validity

namespace LikelihoodRatio

open Binary64

namespace Table

variable {ln : Float → Float} {t : Table} {row col : List Int} {count : Int}

/-- All cells of a table are counts. -/
def Countable (t : Table) : Prop := ∀ row ∈ t, ∀ count ∈ row, IsCount count

lemma Countable.of_mem_transpose (h : t.Countable) (hcol : col ∈ t.transpose) :
    ∀ count ∈ col, IsCount count := by
  intro count hcount
  obtain ⟨j, -, rfl⟩ := mem_transpose_iff.1 hcol
  obtain ⟨row, hrow, hcell⟩ := List.mem_filterMap.1 hcount
  exact h row hrow count (List.mem_of_getElem? hcell)

/-- The number of observations is bounded, and at least the sum of each row. -/
lemma total_bounds (ln : Float → Float) (h : t.Countable) : letI := binary64 ln
    Within 171 (Margins.ofTable t : Margins Float).total ∧
      ∀ row ∈ t, value (countSum row) ≤ value (Margins.ofTable t : Margins Float).total := by
  let := binary64 ln
  have hrows : ∀ r ∈ t.map (countSum : List Int → Float), Within (171 - 54) r ∧ 0 ≤ value r := by
    refine List.forall_mem_map.2 fun row hrow => ?_
    obtain ⟨hwithin, hnonneg, -⟩ := countSum_bounds ln (h row hrow)
    exact ⟨hwithin, hnonneg⟩
  obtain ⟨-, hmem⟩ := value_le_foldl_add (within_zero 171) le_rfl hrows (by norm_num) (by norm_num)
  exact ⟨within_foldl_add (within_zero 171) (fun r hr => (hrows r hr).1) (by norm_num)
    (by norm_num), List.forall_mem_map.1 hmem⟩

/-- What is expected of a cell that holds something. -/
lemma between_expectedOf (ln : Float → Float) (h : t.Countable) (hrow : row ∈ t)
    (hcol : col ∈ t.transpose) (hmem : count ∈ row) (hmem' : count ∈ col) (hpos : 0 < count) :
    letI := binary64 ln
    Between (-171) 234
      (Margins.expectedOf (Margins.ofTable t).total (countSum row) (countSum col) : Float) := by
  let := binary64 ln
  have hr := between_countSum ln (h row hrow) hmem hpos
  have hc := between_countSum ln (h.of_mem_transpose hcol) hmem' hpos
  obtain ⟨hwithin, hle⟩ := total_bounds ln h
  have htotal : Between 0 171 (Margins.ofTable t : Margins Float).total :=
    ⟨hwithin.isFinite, hr.ge.trans (hle row hrow), (le_abs_self _).trans hwithin.abs_le⟩
  exact (hr.mul hc (by norm_num) (by norm_num)).div htotal (by norm_num) (by norm_num)

/-- A cell of a row has the sum of its column beside it. -/
lemma exists_column {α : Type} [Arithmetic α] {c : α} (hrow : row ∈ t)
    (hcell : (count, c) ∈ row.zip t.colSums) :
    ∃ col ∈ t.transpose, count ∈ col ∧ c = countSum col := by
  rw [colSums_eq_rowSums_transpose] at hcell
  obtain ⟨j, hj, hget⟩ := List.mem_iff_getElem.1 hcell
  rw [List.length_zip, rowSums, List.length_map, lt_min_iff] at hj
  simp only [rowSums, List.getElem_zip, List.getElem_map, Prod.mk.injEq] at hget
  obtain ⟨hcount, hc⟩ := hget
  have hcolumn : t.transpose[j] = t.column j := by simp [transpose]
  refine ⟨t.transpose[j], List.getElem_mem hj.2, ?_, hc.symm⟩
  rw [hcolumn, column, List.mem_filterMap]
  exact ⟨row, hrow, by rw [List.getElem?_eq_getElem hj.1, hcount]⟩

lemma eq_countSum_of_mem_zip {α : Type} [Arithmetic α] {r : α} (h : (row, r) ∈ t.zip t.rowSums) :
    row ∈ t ∧ r = countSum row := by
  rw [rowSums, ← List.map_prod_left_eq_zip, List.mem_map] at h
  obtain ⟨row', hrow, heq⟩ := h
  rw [Prod.mk.injEq] at heq
  obtain ⟨rfl, rfl⟩ := heq
  exact ⟨hrow, rfl⟩

/-- The terms of a row. -/
lemma within_foldl_row (hln : LnBounded ln) (h : t.Countable) (hrow : row ∈ t) {s : Float}
    (hs : Within 127 s) : letI := binary64 ln
    Within 127 ((row.zip t.colSums).foldl (fun sum (count, c) => sum + term count
      (Margins.expectedOf (Margins.ofTable t).total (countSum row) c)) s) := by
  let := binary64 ln
  refine List.foldlRecOn _ _ hs fun s hs cell hcell => ?_
  obtain ⟨count, c⟩ := cell
  obtain ⟨col, hcol, hmem, rfl⟩ := exists_column hrow hcell
  have hcount : count ∈ row := (List.of_mem_zip hcell).1
  exact hs.add_small (within_term hln (h row hrow count hcount)
    (between_expectedOf ln h hrow hcol hcount hmem)) (by norm_num) (by norm_num)

/-- **Tables.**  The statistic of a table of counts is a finite number. -/
theorem isFinite_statisticOf (hln : LnBounded ln) (h : t.Countable) : letI := binary64 ln
    (t.statisticOf (.ofTable t) : Float).isFinite = true := by
  let := binary64 ln
  unfold statisticOf
  dsimp only
  split_ifs
  · exact (within_zero 127).isFinite
  · refine (within_double (k := 127) ?_ (by norm_num) (by norm_num)).isFinite
    refine List.foldlRecOn _ _ (within_zero 127) fun s hs cell hcell => ?_
    obtain ⟨row, r⟩ := cell
    obtain ⟨hrow, rfl⟩ := eq_countSum_of_mem_zip hcell
    exact within_foldl_row hln h hrow hs

/-- What is expected of a cell is positive if the cell holds something. -/
theorem expectedOf_pos (ln : Float → Float) (h : t.Countable) {i j : Nat} {r c : Float}
    (hrow : t[i]? = some row) (hcount : row[j]? = some count) (hpos : 0 < count) :
    letI := binary64 ln
    t.rowSums[i]? = some r → t.colSums[j]? = some c →
      (Margins.expectedOf (Margins.ofTable t).total r c).isFinite = true ∧
        0.0 < Margins.expectedOf (Margins.ofTable t).total r c := by
  intro hr hc
  let := binary64 ln
  rw [rowSums, List.getElem?_map, hrow, Option.map_some, Option.some.injEq] at hr
  rw [colSums_eq_rowSums_transpose, rowSums, List.getElem?_map] at hc
  obtain ⟨col, hcol, rfl⟩ := Option.map_eq_some_iff.1 hc
  have hj : j < t.width := by
    obtain ⟨hj, -⟩ := List.getElem?_eq_some_iff.1 hcol
    rwa [length_transpose] at hj
  rw [getElem?_transpose hj, Option.some.injEq] at hcol
  have hmem : row ∈ t := List.mem_of_getElem? hrow
  have hmem' : count ∈ col := by
    rw [← hcol, column, List.mem_filterMap]
    exact ⟨row, hmem, hcount⟩
  have hbetween := between_expectedOf ln h hmem (mem_transpose_iff.2 ⟨j, hj, hcol⟩)
    (List.mem_of_getElem? hcount) hmem' hpos
  rw [hr] at hbetween
  exact ⟨hbetween.isFinite, hbetween.pos⟩

end Table

namespace Fourfold

variable {ln : Float → Float} {f : Fourfold}

lemma countable_toTable (h : ∀ o ∈ f.counts, IsCount o) : f.toTable.Countable := by
  intro row hrow count hcount
  refine h count ?_
  rw [toTable, List.mem_pair] at hrow
  rw [counts]
  rcases hrow with rfl | rfl
  · exact List.mem_append_left [f.onlyB, f.neither] hcount
  · exact List.mem_append_right [f.both, f.onlyA] hcount

lemma nonneg_of_isCount (h : ∀ o ∈ f.counts, IsCount o) : f.Nonneg where
  both := (h _ (by simp [counts])).1
  onlyA := (h _ (by simp [counts])).1
  onlyB := (h _ (by simp [counts])).1
  neither := (h _ (by simp [counts])).1

/-- The root of a statistic is finite, as the statistic is not negative where it is taken. -/
theorem isFinite_root (hln : LnBounded ln) (h : ∀ o ∈ f.counts, IsCount o) : letI := binary64 ln
    (f.root : Float).isFinite = true := by
  let := binary64 ln
  have hfinite := Table.isFinite_statisticOf hln (countable_toTable h)
  unfold root
  dsimp only
  split_ifs with hle hrate
  · exact (within_zero 0).isFinite
  · exact isFinite_sqrt hfinite (lt_of_not_le hfinite rfl hle)
  · exact isFinite_neg (isFinite_sqrt hfinite (lt_of_not_le hfinite rfl hle))

end Fourfold

end LikelihoodRatio
