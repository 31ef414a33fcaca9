/-
# Empty rows and columns

A table may have rows and columns in which nothing is counted.  Its statistic is the same number as
that of the table without them, whatever is lost by rounding (`statistic_ignores_vacant`): rounded
sums that start at zero are not changed by adding zero (`zeroNeutral_binary64`).

The sum of an empty row or column is zero.  It is multiplied but never divided by: what is expected
of a cell is divided by the total alone, and so it is defined in guarded arithmetic for all cells
(`expected_guarded`).  The term of an empty cell is found without a logarithm, and the statistic of
every table of counts is defined in guarded arithmetic (`uncheckedStatistic_binary64`).
-/
import LikelihoodRatio.Proofs.Finite.Table
import LikelihoodRatio.Proofs.Guarded
import LikelihoodRatio.Proofs.Table.Omission
import LikelihoodRatio.Proofs.Table.Sums

namespace LikelihoodRatio.Table

open Arithmetic Binary64

/-! ### Guarded arithmetic -/

section Guarded

variable {α : Type} [Arithmetic α] {t : Table} {total : α}

lemma rowSums_guarded (t : Table) : (t.rowSums : List (Guarded α)) = t.rowSums.map .value := by
  rw [rowSums, rowSums, List.map_map]
  exact List.map_congr_left fun row _ => Guarded.countSum_eq row

lemma colSums_guarded (t : Table) : (t.colSums : List (Guarded α)) = t.colSums.map .value := by
  rw [colSums_eq_rowSums_transpose, rowSums_guarded, ← colSums_eq_rowSums_transpose]

lemma total_guarded (t : Table) :
    (Margins.ofTable t : Margins (Guarded α)).total = .value (Margins.ofTable t).total := by
  rw [Margins.total, Margins.ofTable, rowSums_guarded, Guarded.leftSum_map_value]
  rfl

lemma expectedOf_guarded (htotal : (total == 0.0) = false) (r c : α) :
    Margins.expectedOf (.value total) (.value r) (.value c) =
      Guarded.value (Margins.expectedOf total r c) := by
  rw [Margins.expectedOf, Guarded.value_mul, Guarded.value_div htotal, Margins.expectedOf]

/-- What is expected of a cell is defined for all cells, those of empty rows and columns
included. -/
lemma expected_guarded (htotal : ((Margins.ofTable t : Margins α).total == 0.0) = false) :
    (Margins.ofTable t : Margins (Guarded α)).expected =
      (Margins.ofTable t : Margins α).expected.map (·.map .value) := by
  have hrows : (Margins.ofTable t : Margins (Guarded α)).rows = t.rowSums.map .value :=
    rowSums_guarded t
  have hcols : (Margins.ofTable t : Margins (Guarded α)).cols = t.colSums.map .value :=
    colSums_guarded t
  rw [Margins.expected, Margins.expected, total_guarded, hrows, hcols]
  simp only [List.map_map, Function.comp_def, expectedOf_guarded htotal]
  rfl

/-- The term of a cell is defined if the cell is empty, or if what is expected of it is not zero and
the ratio of the two is positive. -/
def TermDefined (total r : α) (cell : Int × α) : Prop :=
  cell.1 ≠ 0 → (Margins.expectedOf total r cell.2 == 0.0) = false ∧
    0.0 < ofInt cell.1 / Margins.expectedOf total r cell.2

lemma addTerms_guarded (htotal : (total == 0.0) = false) {sums : List α} {line : List Int × α}
    (h : ∀ cell ∈ line.1.zip sums, TermDefined total line.2 cell) (s : α) :
    addTerms (.value total) (sums.map Guarded.value) (.value s) (line.1, .value line.2) =
      .value (addTerms total sums s line) := by
  rw [addTerms, addTerms, List.zip_map_right, List.foldl_map]
  refine List.foldl_rel (r := fun x y => x = Guarded.value y) rfl fun cell hcell x y hxy => ?_
  rw [hxy, ← Guarded.value_add, ← Guarded.term_eq (h cell hcell),
    ← expectedOf_guarded htotal line.2 cell.2]
  rfl

/-- Both loops pass over the same cells, and agree as long as each term is defined. -/
lemma foldl_addTerms_guarded (htotal : (total == 0.0) = false) {rows sums : List α}
    (h : ∀ line ∈ t.zip rows, ∀ cell ∈ line.1.zip sums, TermDefined total line.2 cell) :
    (t.zip (rows.map .value)).foldl (addTerms (.value total) (sums.map .value)) 0.0 =
      Guarded.value ((t.zip rows).foldl (addTerms total sums) 0.0) := by
  rw [List.zip_map_right, List.foldl_map]
  refine List.foldl_rel (r := fun x y => x = Guarded.value y) rfl fun line hline x y hxy => ?_
  rw [hxy]
  exact addTerms_guarded htotal (h line hline) y

/-- The statistic is defined if all its terms are. -/
lemma uncheckedStatistic_guarded
    (h : ∀ line ∈ t.zip t.rowSums, ∀ cell ∈ line.1.zip t.colSums,
      TermDefined (Margins.ofTable t : Margins α).total line.2 cell) :
    (t.uncheckedStatistic : Guarded α) = .value t.uncheckedStatistic := by
  have hbeq : (Guarded.value (Margins.ofTable t : Margins α).total == 0.0) =
      ((Margins.ofTable t : Margins α).total == 0.0) := rfl
  rw [uncheckedStatistic, uncheckedStatistic, statisticOf_eq_addTerms, statisticOf_eq_addTerms,
    total_guarded, hbeq]
  split_ifs with htotal
  · rfl
  · have hfold := foldl_addTerms_guarded (eq_false_of_ne_true htotal) h
    rw [← rowSums_guarded, ← colSums_guarded] at hfold
    exact congrArg (2.0 * ·) hfold

end Guarded

/-! ### Rounded arithmetic -/

section Rounded

variable {t : Table}

/-- A rounded sum that starts at zero is never negative zero, which is the only number that adding
zero changes. -/
lemma zeroNeutral_binary64 (ln : Float → Float) : letI := binary64 ln
    ZeroNeutral Float := by
  have hzero : (0.0 : Float) ≠ -0.0 := by decide +kernel
  have hneg : (-0.0 : Float) + 0.0 ≠ -0.0 := by decide +kernel
  let := binary64 ln
  refine ⟨show Float.ofInt 0 = 0.0 by decide +kernel, add_posZero hzero, fun x y hx => ?_⟩
  refine add_posZero (add_ne_negZero ?_ y)
  rintro rfl
  exact hneg hx

/-- The statistic of a table of counts is defined. -/
lemma uncheckedStatistic_binary64 (ln : Float → Float) (h : t.Countable) : letI := binary64 ln
    (t.uncheckedStatistic : Guarded Float) = .value t.uncheckedStatistic := by
  let := binary64 ln
  refine uncheckedStatistic_guarded ?_
  rintro ⟨row, r⟩ hline ⟨count, c⟩ hcell hne
  obtain ⟨hrow, rfl⟩ := eq_countSum_of_mem_zip hline
  obtain ⟨col, hcol, hmem, rfl⟩ := exists_column hrow hcell
  have hcount : count ∈ row := (List.of_mem_zip hcell).1
  obtain ⟨hnonneg, hle⟩ := h row hrow count hcount
  have hpos : 0 < count := hnonneg.lt_of_ne' hne
  have hexpected := between_expectedOf ln h hrow hcol hcount hmem hpos
  have hratio := (between_ofInt hpos hle).div hexpected (by norm_num) (by norm_num)
  exact ⟨(beq_zero_eq_false_iff (le_of_lt hexpected.pos)).2 hexpected.pos, hratio.pos⟩

lemma eq_zero_of_countSum {counts : List Int} (ln : Float → Float)
    (h : ∀ count ∈ counts, 0 ≤ count) : letI := binary64 ln
    (countSum counts == (0.0 : Float)) = true → ∀ count ∈ counts, count = 0 := by
  let := binary64 ln
  intro hsum
  by_contra hne
  have hpos := (countSum_beq_zero_eq_false_iff_exists ln h).2 ((exists_pos_iff h).2 hne)
  rw [hsum] at hpos
  cases hpos

/-- A cell is empty if the sum of its row or of its column is zero. -/
lemma Countable.eq_zero_of_margin (h : t.Countable) (ln : Float → Float) {i j : Nat}
    {row : List Int} {count : Int} {r c : Float} (hrow : t[i]? = some row)
    (hcount : row[j]? = some count) : letI := binary64 ln
    t.rowSums[i]? = some r → t.colSums[j]? = some c →
      (r == 0.0) = true ∨ (c == 0.0) = true → count = 0 := by
  let := binary64 ln
  intro hr hc hzero
  have hmem : row ∈ t := List.mem_of_getElem? hrow
  rcases hzero with hzero | hzero
  · rw [rowSums, List.getElem?_map, hrow, Option.map_some, Option.some.injEq] at hr
    subst hr
    exact eq_zero_of_countSum ln (fun count hcount => (h row hmem count hcount).1) hzero count
      (List.mem_of_getElem? hcount)
  · have hj : j < t.width := by
      obtain ⟨hj, -⟩ := List.getElem?_eq_some_iff.1 hc
      exact hj.trans_eq t.length_cols_ofTable
    rw [getElem?_colSums hj, Option.some.injEq] at hc
    subst hc
    have hcol : t.column j ∈ t.transpose := mem_transpose_iff.2 ⟨j, hj, rfl⟩
    exact eq_zero_of_countSum ln (fun count hcount => (h.of_mem_transpose hcol count hcount).1)
      hzero count (List.mem_filterMap.2 ⟨row, hmem, hcount⟩)

/-- **Empty rows and columns.**  Rows and columns in which nothing is counted, some of them or all
of them, can be left out of a table of counts: the statistic is the same number, however sums are
rounded.  Where a division by zero and the logarithm of zero are undefined, the statistic is
defined, and unless nothing is counted at all, so is what is expected of each cell, also if the row
or the column of the cell sums to zero.  The term of such a cell is zero, whatever is expected of
it. -/
theorem statistic_ignores_vacant (t : Table) (hrect : t.Rectangular) (hcount : t.Countable)
    (rows cols : Nat → Bool) (hvacant : t.Vacant rows cols) :
    (∀ ln : Float → Float, letI := binary64 ln
      ((t.without rows cols).uncheckedStatistic : Float) = t.uncheckedStatistic ∧
        (t.uncheckedStatistic : Guarded Float) = .value t.uncheckedStatistic ∧
        (((Margins.ofTable t : Margins Float).total == 0.0) = false →
          (Margins.ofTable t : Margins (Guarded Float)).expected =
            (Margins.ofTable t : Margins Float).expected.map (·.map .value)) ∧
        ∀ (i j : Nat) (row : List Int) (count : Int) (r c : Float),
          t[i]? = some row → row[j]? = some count → t.rowSums[i]? = some r →
            t.colSums[j]? = some c → (r == 0.0) = true ∨ (c == 0.0) = true →
              ∀ expected : Guarded Float, term count expected = .value 0.0) ∧
      ∀ (α : Type) [Arithmetic α], ZeroNeutral α →
        ((t.without rows cols).uncheckedStatistic : α) = t.uncheckedStatistic := by
  refine ⟨fun ln => ?_, fun α _ hzero => uncheckedStatistic_without hzero hrect hvacant⟩
  let := binary64 ln
  refine ⟨uncheckedStatistic_without (zeroNeutral_binary64 ln) hrect hvacant,
    uncheckedStatistic_binary64 ln hcount, expected_guarded, ?_⟩
  intro i j row count r c hrow hcell hr hc hmargin expected
  rw [hcount.eq_zero_of_margin ln hrow hcell hr hc hmargin, Guarded.term_zero]

/-- A table with two empty rows and an empty column between others. -/
theorem statistic_ignores_vacant_scattered :
    Rectangular [[0, 0, 0], [3, 0, 7], [0, 0, 0], [5, 0, 2]] ∧
      Countable [[0, 0, 0], [3, 0, 7], [0, 0, 0], [5, 0, 2]] ∧
      Vacant (· % 2 == 0) (· == 1) [[0, 0, 0], [3, 0, 7], [0, 0, 0], [5, 0, 2]] ∧
      ZeroNeutral Float ∧
      (uncheckedStatistic [[3, 7], [5, 2]] : Float) =
        uncheckedStatistic [[0, 0, 0], [3, 0, 7], [0, 0, 0], [5, 0, 2]] ∧
      (uncheckedStatistic [[0, 0, 0], [3, 0, 7], [0, 0, 0], [5, 0, 2]] : Guarded Float) =
        .value (uncheckedStatistic [[0, 0, 0], [3, 0, 7], [0, 0, 0], [5, 0, 2]]) ∧
      (Margins.ofTable [[0, 0, 0], [3, 0, 7], [0, 0, 0], [5, 0, 2]] :
          Margins (Guarded Float)).expected =
        (Margins.ofTable [[0, 0, 0], [3, 0, 7], [0, 0, 0], [5, 0, 2]] :
          Margins Float).expected.map (·.map .value) ∧
      term 0 (.undefined : Guarded Float) = .value 0.0 := by
  have hrect : Rectangular [[0, 0, 0], [3, 0, 7], [0, 0, 0], [5, 0, 2]] := by decide
  have hcount : Countable [[0, 0, 0], [3, 0, 7], [0, 0, 0], [5, 0, 2]] := by
    simp [Countable, IsCount, largestCount]
  have hvacant : Vacant (· % 2 == 0) (· == 1) [[0, 0, 0], [3, 0, 7], [0, 0, 0], [5, 0, 2]] := by
    refine ⟨fun i row hi hrow => ?_, fun j hj => ?_⟩
    · have hlt : i < 4 := (List.getElem?_eq_some_iff.1 hrow).1
      have heven : i % 2 = 0 := eq_of_beq hi
      obtain rfl : [0, 0, 0] = row := by
        obtain rfl | rfl : i = 0 ∨ i = 2 := by omega
        · exact Option.some.inj hrow
        · exact Option.some.inj hrow
      decide
    · rw [eq_of_beq hj]
      decide
  obtain ⟨hrounded, hany⟩ := statistic_ignores_vacant _ hrect hcount _ _ hvacant
  obtain ⟨-, hguarded, hexpected, hcell⟩ := hrounded Float.log
  have hneutral : ZeroNeutral Float := zeroNeutral_binary64 Float.log
  exact ⟨hrect, hcount, hvacant, hneutral, hany Float hneutral, hguarded,
    hexpected (by decide +kernel),
    hcell 2 0 [0, 0, 0] 0 0.0 8.0 rfl rfl (by decide +kernel) (by decide +kernel)
      (.inl (by decide +kernel)) .undefined⟩

end Rounded

end LikelihoodRatio.Table
