/-
# The inequality of Gibbs

In exact arithmetic a term `o * ln (o / e)` is at least `o - e`, and equal to it only if `o` is `e`
(`sub_le_term`, `term_eq_sub_iff`).  Added up, the statistic of counts is never negative if the
expected values have the same sum as the counts, and it is zero only if every count is as expected
(`statistic_nonneg`, `statistic_eq_zero_iff`).
-/
import LikelihoodRatio.Proofs.Exact.Basic
import Mathlib.InformationTheory.KullbackLeibler.KLFun

namespace LikelihoodRatio

open InformationTheory (klFun klFun_apply klFun_nonneg klFun_eq_zero_iff)

/-- A count that an expected value leaves room for: something is counted only where something is
expected. -/
structure Admits (observed : Int) (expected : ℝ) : Prop where
  observed_nonneg : 0 ≤ observed
  expected_nonneg : 0 ≤ expected
  eq_zero : expected = 0 → observed = 0

/-- Rows and columns that are at least a cell leave room for it, if they are independent. -/
lemma admits_independent {count : Int} {row col total : ℝ} (hcount : 0 ≤ count)
    (hrow : count ≤ row) (hcol : count ≤ col) (htotal : row ≤ total) :
    Admits count (row * col / total) := by
  have hcount' : (0 : ℝ) ≤ count := Int.cast_nonneg hcount
  have hrow' : 0 ≤ row := hcount'.trans hrow
  refine ⟨hcount, div_nonneg (mul_nonneg hrow' (hcount'.trans hcol)) (hrow'.trans htotal),
    fun hzero => ?_⟩
  have hle : (count : ℝ) ≤ 0 := by
    rcases div_eq_zero_iff.1 hzero with hprod | hzero
    · rcases mul_eq_zero.1 hprod with hzero | hzero <;> linarith
    · linarith
  exact le_antisymm (by exact_mod_cast hle) hcount

lemma term_eq_klFun {o : Int} {e : ℝ} (he : 0 < e) :
    term o e = o - e + e * klFun (o / e) := by
  rw [term_real, klFun_apply]
  field_simp
  ring

lemma sub_le_term {o : Int} {e : ℝ} (h : Admits o e) : (o : ℝ) - e ≤ term o e := by
  -- Where nothing is expected the term is not of the form `term_eq_klFun`, but zero.
  rcases h.expected_nonneg.eq_or_lt with he | he
  · rw [h.eq_zero he.symm, ← he, term_real]
    simp
  · rw [term_eq_klFun he]
    have ho : (0 : ℝ) ≤ o := Int.cast_nonneg h.observed_nonneg
    have hkl := mul_nonneg he.le (klFun_nonneg (div_nonneg ho he.le))
    linarith

lemma term_eq_sub_iff {o : Int} {e : ℝ} (h : Admits o e) : term o e = o - e ↔ (o : ℝ) = e := by
  rcases h.expected_nonneg.eq_or_lt with he | he
  · rw [h.eq_zero he.symm, ← he, term_real]
    simp
  · have ho : (0 : ℝ) ≤ o := Int.cast_nonneg h.observed_nonneg
    rw [term_eq_klFun he, add_eq_left, mul_eq_zero, klFun_eq_zero_iff (div_nonneg ho he.le),
      div_eq_one_iff_eq he.ne']
    exact or_iff_right he.ne'

/-! ### Many counts -/

variable {observed : List Int} {expected : List ℝ}

/-- The terms add up to the surplus of the counts at least. -/
lemma sum_sub_sum_le (h : List.Forall₂ Admits observed expected) :
    (observed.map Int.cast).sum - expected.sum ≤ (List.zipWith term observed expected).sum := by
  induction h with
  | nil => simp
  | cons hcell _ ih =>
    have hterm := sub_le_term hcell
    simp only [List.map_cons, List.zipWith_cons_cons, List.sum_cons]
    linarith

lemma sum_terms_eq_iff (h : List.Forall₂ Admits observed expected) :
    (List.zipWith term observed expected).sum = (observed.map Int.cast).sum - expected.sum ↔
      List.Forall₂ (fun (o : Int) (e : ℝ) => o = e) observed expected := by
  induction h with
  | nil => simp
  | cons hcell hcells ih =>
    -- Neither part can make up for the other: both are at least their surplus.
    have hterm := sub_le_term hcell
    have hrest := sum_sub_sum_le hcells
    rw [List.forall₂_cons, ← ih, ← term_eq_sub_iff hcell]
    simp only [List.map_cons, List.zipWith_cons_cons, List.sum_cons]
    constructor
    · intro heq
      constructor <;> linarith
    · rintro ⟨h1, h2⟩
      linarith

/-- Counts that are expected to have the sum that they have do not have a negative statistic. -/
theorem statistic_nonneg (h : List.Forall₂ Admits observed expected)
    (hsum : expected.sum = (observed.map Int.cast).sum) : 0 ≤ statistic observed expected := by
  have hle := sum_sub_sum_le h
  rw [hsum, sub_self] at hle
  rw [statistic_real]
  exact mul_nonneg zero_le_two hle

/-- The statistic vanishes only if every count is as expected. -/
theorem statistic_eq_zero_iff (h : List.Forall₂ Admits observed expected)
    (hsum : expected.sum = (observed.map Int.cast).sum) :
    statistic observed expected = 0 ↔
      List.Forall₂ (fun (o : Int) (e : ℝ) => o = e) observed expected := by
  rw [← sum_terms_eq_iff h, hsum, sub_self, statistic_real, mul_eq_zero]
  exact or_iff_right two_ne_zero

end LikelihoodRatio
