/-
# The statistics in exact arithmetic

Over the real numbers the formulas of this library are the identities of the theory: nothing is
rounded, so that the order of the operations does not matter and an empty cell needs no special
case, `0 * ln 0` being zero.
-/
import LikelihoodRatio.Table.Independence
import Mathlib.Analysis.SpecialFunctions.Log.Basic
import Mathlib.Analysis.SpecialFunctions.Sqrt

namespace LikelihoodRatio

/-- Exact arithmetic. -/
noncomputable instance arithmeticReal : Arithmetic ℝ where
  ofInt n := n
  ln := Real.log
  sqrt := Real.sqrt
  isFinite _ := true

open Arithmetic

lemma ofInt_real (n : Int) : (ofInt n : ℝ) = n := rfl

lemma zero_real : (0.0 : ℝ) = 0 := by norm_num

lemma two_real : (2.0 : ℝ) = 2 := by norm_num

lemma leftSum_real (xs : List ℝ) : leftSum xs = xs.sum := by
  change xs.foldl (· + ·) (0.0 : ℝ) = xs.sum
  rw [zero_real, List.sum_eq_foldl]

lemma countSum_real (counts : List Int) : (countSum counts : ℝ) = (counts.map Int.cast).sum :=
  leftSum_real _

lemma term_real (observed : Int) (expected : ℝ) :
    term observed expected = observed * Real.log (observed / expected) := by
  rw [term]
  split_ifs with h
  · subst h
    norm_num
  · rfl

/-- The logarithm of a term split in two.  An empty cell has no logarithm to split, and adds nothing
on either side. -/
lemma term_eq_sub (observed : Int) {expected : ℝ} (h : expected ≠ 0) :
    term observed expected = observed * Real.log observed - observed * Real.log expected := by
  rw [term_real]
  rcases eq_or_ne observed 0 with rfl | ho
  · simp
  · rw [Real.log_div (Int.cast_ne_zero.2 ho) h]
    ring

lemma statistic_real (observed : List Int) (expected : List ℝ) :
    statistic observed expected = 2 * (List.zipWith term observed expected).sum := by
  simp only [statistic, leftSum_real, two_real]

/-! ### Tables -/

lemma total_real (m : Margins ℝ) : m.total = m.rows.sum := leftSum_real m.rows

lemma foldl_add_real {β : Type} (f : β → ℝ) (xs : List β) (s : ℝ) :
    xs.foldl (fun s x => s + f x) s = s + (xs.map f).sum := by
  induction xs generalizing s with
  | nil => simp
  | cons x xs ih => rw [List.foldl_cons, ih, List.map_cons, List.sum_cons, add_assoc]

/-- The statistic of a table adds up the terms of its cells row by row. -/
lemma statisticOf_real (t : Table) (m : Margins ℝ) :
    t.statisticOf m = if m.rows.sum = 0 then 0 else
      2 * ((t.zip m.rows).map fun (row, r) =>
        ((row.zip m.cols).map fun (count, c) => term count (r * c / m.rows.sum)).sum).sum := by
  have hrow (row : List Int × ℝ) (s : ℝ) :
      (row.1.zip m.cols).foldl
        (fun s cell => s + term cell.1 (Margins.expectedOf m.rows.sum row.2 cell.2)) s =
      s + ((row.1.zip m.cols).map fun cell => term cell.1 (row.2 * cell.2 / m.rows.sum)).sum :=
    foldl_add_real _ _ s
  rw [Table.statisticOf, total_real]
  simp only [beq_iff_eq, zero_real, two_real, hrow, foldl_add_real, zero_add]

end LikelihoodRatio
