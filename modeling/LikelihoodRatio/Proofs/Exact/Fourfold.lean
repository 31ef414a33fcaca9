/-
# The score in exact arithmetic

In exact arithmetic the score of a fourfold table is the square root of its statistic, with the sign
of the cross difference `both * neither - onlyA * onlyB` (`score_eq_sign_mul_sqrt`).  The statistic
vanishes with the cross difference, by the inequality of Gibbs; so a rate of no observations is
never looked at, and exchanging an event for its absence turns the sign around.
-/
import LikelihoodRatio.Proofs.Exact.Gibbs
import LikelihoodRatio.Proofs.Fourfold.Basic

namespace LikelihoodRatio.Fourfold

open Arithmetic

/-! ### The statistic -/

/-- What is expected of the four cells if the events are independent. -/
noncomputable def expected (f : Fourfold) : List ℝ :=
  [(f.both + f.onlyA) * (f.both + f.onlyB) / f.total,
    (f.both + f.onlyA) * (f.onlyA + f.neither) / f.total,
    (f.onlyB + f.neither) * (f.both + f.onlyB) / f.total,
    (f.onlyB + f.neither) * (f.onlyA + f.neither) / f.total]

/-- The cross difference, positive if the events favour each other. -/
def crossDifference (f : Fourfold) : Int := f.both * f.neither - f.onlyA * f.onlyB

lemma total_cast (f : Fourfold) : (f.total : ℝ) = f.both + f.onlyA + f.onlyB + f.neither := by
  simp only [total, Int.cast_add]

/-- The statistic is that of the four cells.  A table without observations needs no exception. -/
lemma uncheckedStatistic_real {f : Fourfold} (h : f.Nonneg) :
    f.toTable.uncheckedStatistic = LikelihoodRatio.statistic f.counts f.expected := by
  have hmargins : (Margins.ofTable f.toTable : Margins ℝ) =
      ⟨[f.both + f.onlyA, f.onlyB + f.neither], [f.both + f.onlyB, f.onlyA + f.neither]⟩ := by
    simp [Margins.ofTable, Table.rowSums, Table.colSums, toTable, countSum_real, Table.width,
      Table.addRow, List.replicate, zero_real, ofInt_real]
  have htotal : ((f.both : ℝ) + f.onlyA + (f.onlyB + f.neither)) = f.total := by
    rw [total_cast]
    ring
  rw [Table.uncheckedStatistic, statisticOf_real, hmargins, statistic_real]
  by_cases hzero : f.total = 0
  · rw [h.eq_zero hzero]
    simp [counts, expected, term_real]
  · simp only [List.sum_cons, List.sum_nil, add_zero, htotal, Int.cast_eq_zero, hzero, if_false,
      toTable, List.zip_cons_cons, List.zip_nil_right, List.map_cons, List.map_nil, counts,
      expected, List.zipWith_cons_cons, List.zipWith_nil_right]
    ring

section Zero

variable {f : Fourfold}

/-- The expected values leave room for the counts. -/
lemma Nonneg.admits (h : f.Nonneg) : List.Forall₂ Admits f.counts f.expected := by
  have hboth : (0 : ℝ) ≤ f.both := Int.cast_nonneg h.both
  have honlyA : (0 : ℝ) ≤ f.onlyA := Int.cast_nonneg h.onlyA
  have honlyB : (0 : ℝ) ≤ f.onlyB := Int.cast_nonneg h.onlyB
  have hneither : (0 : ℝ) ≤ f.neither := Int.cast_nonneg h.neither
  have htotal := f.total_cast
  refine .cons (admits_independent h.both ?_ ?_ ?_) (.cons (admits_independent h.onlyA ?_ ?_ ?_)
    (.cons (admits_independent h.onlyB ?_ ?_ ?_)
      (.cons (admits_independent h.neither ?_ ?_ ?_) .nil))) <;> linarith

lemma sum_expected (f : Fourfold) : f.expected.sum = (f.counts.map Int.cast).sum := by
  have hsum : (f.counts.map Int.cast).sum = (f.total : ℝ) := by
    rw [total_cast]
    simp only [counts, List.map_cons, List.map_nil, List.sum_cons, List.sum_nil]
    ring
  rw [hsum]
  by_cases hzero : f.total = 0
  · simp [expected, hzero]
  · have hne : (f.total : ℝ) ≠ 0 := Int.cast_ne_zero.2 hzero
    simp only [expected, List.sum_cons, List.sum_nil]
    field_simp
    rw [total_cast]
    ring

lemma Nonneg.statistic_nonneg (h : f.Nonneg) : (0 : ℝ) ≤ f.toTable.uncheckedStatistic := by
  rw [uncheckedStatistic_real h]
  exact LikelihoodRatio.statistic_nonneg h.admits f.sum_expected

/-- Every cell is as expected if there is no cross difference, and no cell is if there is one. -/
lemma Nonneg.statistic_eq_zero_iff (h : f.Nonneg) :
    (f.toTable.uncheckedStatistic : ℝ) = 0 ↔ f.crossDifference = 0 := by
  rw [uncheckedStatistic_real h, LikelihoodRatio.statistic_eq_zero_iff h.admits f.sum_expected]
  simp only [Fourfold.counts, expected, List.forall₂_cons, List.Forall₂.nil, and_true]
  rcases eq_or_ne f.total 0 with hzero | hne
  · rw [h.eq_zero hzero]
    simp [crossDifference]
  · have hne' : (f.total : ℝ) ≠ 0 := Int.cast_ne_zero.2 hne
    have htotal := f.total_cast
    have hcross : f.crossDifference = 0 ↔ (f.both : ℝ) * f.neither - f.onlyA * f.onlyB = 0 := by
      rw [crossDifference]
      exact_mod_cast Iff.rfl
    rw [hcross, eq_div_iff hne', eq_div_iff hne', eq_div_iff hne', eq_div_iff hne', htotal]
    -- Each cell is off by the cross difference, upwards on the diagonal and downwards off it.
    constructor
    · rintro ⟨hboth, -⟩
      linear_combination hboth
    · intro heq
      refine ⟨?_, ?_, ?_, ?_⟩
      · linear_combination heq
      · linear_combination -heq
      · linear_combination -heq
      · linear_combination heq

end Zero

/-! ### The score -/

section Score

variable {f : Fourfold}

/-- An empty row or column leaves no cross difference. -/
lemma Nonneg.crossDifference_eq_zero (h : f.Nonneg)
    (hempty : f.both + f.onlyA = 0 ∨ f.onlyB + f.neither = 0 ∨ f.both + f.onlyB = 0 ∨
      f.onlyA + f.neither = 0) : f.crossDifference = 0 := by
  obtain ⟨hboth, honlyA, honlyB, hneither⟩ := h
  rw [crossDifference, sub_eq_zero]
  rcases hempty with hzero | hzero | hzero | hzero
  · rw [show f.both = 0 by omega, show f.onlyA = 0 by omega, zero_mul, zero_mul]
  · rw [show f.onlyB = 0 by omega, show f.neither = 0 by omega, mul_zero, mul_zero]
  · rw [show f.both = 0 by omega, show f.onlyB = 0 by omega, zero_mul, mul_zero]
  · rw [show f.onlyA = 0 by omega, show f.neither = 0 by omega, mul_zero, zero_mul]

lemma Nonneg.rows_pos (h : f.Nonneg) (hcross : f.crossDifference ≠ 0) :
    0 < f.both + f.onlyA ∧ 0 < f.onlyB + f.neither := by
  have hrowA : f.both + f.onlyA ≠ 0 := fun hzero =>
    hcross (h.crossDifference_eq_zero (Or.inl hzero))
  have hrowB : f.onlyB + f.neither ≠ 0 := fun hzero =>
    hcross (h.crossDifference_eq_zero (Or.inr (Or.inl hzero)))
  exact ⟨(add_nonneg h.both h.onlyA).lt_of_ne' hrowA,
    (add_nonneg h.onlyB h.neither).lt_of_ne' hrowB⟩

/-- The rates of B are compared as the cross difference says. -/
lemma Nonneg.rate_lt_iff (h : f.Nonneg) (hcross : f.crossDifference ≠ 0) :
    (f.rateWithoutA : ℝ) < f.rateWithA ↔ 0 < f.crossDifference := by
  obtain ⟨hrowA, hrowB⟩ := h.rows_pos hcross
  have hrowA' : (0 : ℝ) < f.both + f.onlyA := by exact_mod_cast hrowA
  have hrowB' : (0 : ℝ) < f.onlyB + f.neither := by exact_mod_cast hrowB
  have hcross' : 0 < f.crossDifference ↔ (0 : ℝ) < f.both * f.neither - f.onlyA * f.onlyB := by
    rw [crossDifference]
    exact_mod_cast Iff.rfl
  change (f.onlyB : ℝ) / (f.onlyB + f.neither) < f.both / (f.both + f.onlyA) ↔ _
  rw [div_lt_div_iff₀ hrowB' hrowA', hcross']
  constructor <;> intro hlt <;> linarith

/-- The score is the root of the statistic with the sign of the cross difference. -/
lemma Nonneg.root_real (h : f.Nonneg) :
    (f.root : ℝ) = Int.sign f.crossDifference * √f.toTable.uncheckedStatistic := by
  have hroot : (f.root : ℝ) =
      if (f.toTable.uncheckedStatistic : ℝ) ≤ 0 then 0
      else if (f.rateWithoutA : ℝ) < f.rateWithA then √f.toTable.uncheckedStatistic
      else -√f.toTable.uncheckedStatistic := by
    rw [root]
    simp only [zero_real]
    rfl
  rw [hroot]
  rcases eq_or_ne f.crossDifference 0 with hzero | hcross
  · rw [if_pos (h.statistic_eq_zero_iff.2 hzero).le, hzero]
    simp
  · have hpos : ¬(f.toTable.uncheckedStatistic : ℝ) ≤ 0 := fun hle =>
      hcross (h.statistic_eq_zero_iff.1 (le_antisymm hle h.statistic_nonneg))
    rw [if_neg hpos]
    -- The sign is read off the rates, which compare as the cross difference with zero.
    rcases hcross.lt_or_gt with hneg | hpos'
    · rw [if_neg (by rw [h.rate_lt_iff hcross]; omega), Int.sign_eq_neg_one_of_neg hneg]
      simp
    · rw [if_pos ((h.rate_lt_iff hcross).2 hpos'), Int.sign_eq_one_of_pos hpos']
      simp

end Score

/-! ### Exchanging events -/

section Exchange

variable {f : Fourfold}

lemma Nonneg.statistic_swapRows (h : f.Nonneg) :
    (f.swapRows.toTable.uncheckedStatistic : ℝ) = f.toTable.uncheckedStatistic := by
  rw [uncheckedStatistic_real h, uncheckedStatistic_real h.swapRows, statistic_real, statistic_real]
  -- The same four terms in another order.
  simp only [Fourfold.swapRows, Fourfold.counts, expected, total_cast, List.zipWith_cons_cons,
    List.zipWith_nil_left, List.sum_cons, List.sum_nil]
  ring_nf

lemma Nonneg.statistic_transpose (h : f.Nonneg) :
    (f.transpose.toTable.uncheckedStatistic : ℝ) = f.toTable.uncheckedStatistic := by
  rw [uncheckedStatistic_real h, uncheckedStatistic_real h.transpose, statistic_real,
    statistic_real]
  simp only [Fourfold.transpose, Fourfold.counts, expected, total_cast, List.zipWith_cons_cons,
    List.zipWith_nil_left, List.sum_cons, List.sum_nil]
  ring_nf

lemma crossDifference_swapRows (f : Fourfold) :
    f.swapRows.crossDifference = -f.crossDifference := by
  simp only [crossDifference, Fourfold.swapRows]
  ring

lemma Nonneg.root_swapRows (h : f.Nonneg) : (f.swapRows.root : ℝ) = -f.root := by
  rw [h.swapRows.root_real, h.root_real, crossDifference_swapRows, h.statistic_swapRows,
    Int.sign_neg]
  push_cast
  ring

lemma Nonneg.root_transpose (h : f.Nonneg) : (f.transpose.root : ℝ) = f.root := by
  have hcross : f.transpose.crossDifference = f.crossDifference := by
    simp only [crossDifference, Fourfold.transpose]
    ring
  rw [h.transpose.root_real, h.root_real, hcross, h.statistic_transpose]

/-- The columns are the rows of the transposed table. -/
lemma Nonneg.root_swapCols (h : f.Nonneg) : (f.swapCols.root : ℝ) = -f.root := by
  have hswap : f.swapCols = f.transpose.swapRows.transpose := rfl
  rw [hswap, h.transpose.swapRows.root_transpose, h.transpose.root_swapRows, h.root_transpose]

end Exchange

/-- **The score in exact arithmetic.**  It is the root of the statistic with the sign of the cross
difference.  The statistic is never negative and vanishes with the cross difference, as it does if
a row or a column is empty; so no rate of an empty row is looked at.  Exchanging the rows or the
columns negates the score, and transposing the table keeps it. -/
theorem score_eq_sign_mul_sqrt (f : Fourfold) (h : f.Nonneg) :
    ∃ L : ℝ, (f.statistic : Except (Error ℝ) ℝ) = .ok L ∧
      0 ≤ L ∧
      (L = 0 ↔ f.both * f.neither = f.onlyA * f.onlyB) ∧
      (f.both + f.onlyA = 0 ∨ f.onlyB + f.neither = 0 ∨ f.both + f.onlyB = 0 ∨
        f.onlyA + f.neither = 0 → L = 0) ∧
      (¬L ≤ 0 → 0 < f.both + f.onlyA ∧ 0 < f.onlyB + f.neither) ∧
      (f.score : Except (Error ℝ) ℝ) =
        .ok (Int.sign (f.both * f.neither - f.onlyA * f.onlyB) * √L) ∧
      (f.swapRows.score : Except (Error ℝ) ℝ) =
        .ok (-(Int.sign (f.both * f.neither - f.onlyA * f.onlyB) * √L)) ∧
      (f.swapCols.score : Except (Error ℝ) ℝ) =
        .ok (-(Int.sign (f.both * f.neither - f.onlyA * f.onlyB) * √L)) ∧
      (f.transpose.score : Except (Error ℝ) ℝ) =
        .ok (Int.sign (f.both * f.neither - f.onlyA * f.onlyB) * √L) := by
  have hcross : f.crossDifference = 0 ↔ f.both * f.neither = f.onlyA * f.onlyB := sub_eq_zero
  refine ⟨f.toTable.uncheckedStatistic, statistic_eq_ok h, h.statistic_nonneg,
    h.statistic_eq_zero_iff.trans hcross,
    fun hempty => h.statistic_eq_zero_iff.2 (h.crossDifference_eq_zero hempty),
    fun hpos => h.rows_pos fun hzero => hpos (h.statistic_eq_zero_iff.2 hzero).le, ?_, ?_, ?_, ?_⟩
  · rw [score_eq_ok h, h.root_real, crossDifference]
  · rw [score_eq_ok h.swapRows, h.root_swapRows, h.root_real, crossDifference]
  · rw [score_eq_ok h.swapCols, h.root_swapCols, h.root_real, crossDifference]
  · rw [score_eq_ok h.transpose, h.root_transpose, h.root_real, crossDifference]

/-- Two events that exclude each other have a negative score. -/
theorem score_eq_sign_mul_sqrt_exclusive :
    Nonneg ⟨0, 4, 3, 0⟩ ∧
      ∃ L : ℝ, ((⟨0, 4, 3, 0⟩ : Fourfold).statistic : Except (Error ℝ) ℝ) = .ok L ∧ 0 < L ∧
        ((⟨0, 4, 3, 0⟩ : Fourfold).score : Except (Error ℝ) ℝ) = .ok (-√L) := by
  have h : Nonneg ⟨0, 4, 3, 0⟩ := ⟨by decide, by decide, by decide, by decide⟩
  obtain ⟨L, hL, hnonneg, hzero, -, -, hscore, -⟩ := score_eq_sign_mul_sqrt _ h
  have hne : L ≠ 0 := fun heq => absurd (hzero.1 heq) (by decide)
  have hsign : Int.sign (0 * 0 - 4 * 3) = -1 := rfl
  rw [hsign, Int.cast_neg, Int.cast_one, neg_one_mul] at hscore
  exact ⟨h, L, hL, hnonneg.lt_of_ne' hne, hscore⟩

end LikelihoodRatio.Fourfold
