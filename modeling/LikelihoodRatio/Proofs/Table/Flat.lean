/-
# A table as one list

The statistic of a table runs over the rows and in each row over the columns.  It is the statistic
of all cells in row-major order against the expected counts in the same order
(`statisticOf_eq_statistic`).  This holds in any arithmetic: the same terms are added in the same
order.
-/
import LikelihoodRatio.Table.Independence
import Mathlib.Data.List.Forall2

namespace LikelihoodRatio.Table

section Arithmetic

variable {α : Type} [Arithmetic α]

/-- The loop over the rows adds the terms of all cells in row-major order. -/
lemma foldl_rows (f : α → α → α) {t : Table} {rows cols : List α}
    (hrows : rows.length = t.length) (hcols : ∀ row ∈ t, row.length = cols.length) (s : α) :
    (t.zip rows).foldl (fun s (row, r) =>
        (row.zip cols).foldl (fun s (x, c) => s + term x (f r c)) s) s =
      (List.zipWith term t.flatten (rows.map fun r => cols.map (f r)).flatten).foldl (· + ·) s := by
  induction t generalizing rows s with
  | nil => simp
  | cons row t ih =>
    cases rows with
    | nil => simp at hrows
    | cons r rows =>
      have hlength : row.length = (cols.map (f r)).length := by
        rw [List.length_map]
        exact hcols row List.mem_cons_self
      have hrow : (List.zipWith term row (cols.map (f r))).foldl (· + ·) s =
          (row.zip cols).foldl (fun s (x, c) => s + term x (f r c)) s := by
        rw [List.zipWith_map_right, List.zipWith_foldl_eq_zip_foldl]
      rw [List.map_cons, List.flatten_cons, List.flatten_cons, List.zipWith_append hlength,
        List.foldl_append, hrow]
      exact ih (by simpa using hrows) (fun row hrow => hcols row (List.mem_cons_of_mem _ hrow)) _

/-- The statistic of a table is that of its cells in row-major order. -/
theorem statisticOf_eq_statistic {t : Table} {m : Margins α} (hrows : m.rows.length = t.length)
    (hcols : ∀ row ∈ t, row.length = m.cols.length) (htotal : (m.total == 0.0) = false) :
    t.statisticOf m = LikelihoodRatio.statistic t.flatten m.expected.flatten := by
  rw [statisticOf, LikelihoodRatio.statistic, leftSum, Margins.expected]
  simp only [htotal, Bool.false_eq_true, if_false]
  rw [foldl_rows (Margins.expectedOf m.total) hrows hcols]

end Arithmetic

/-! ### Comparing lists of rows -/

/-- Lists of rows of the same lengths are related cell by cell if their rows are. -/
lemma forall₂_flatten_map_iff {β γ : Type} {R : β → γ → Prop} {f : List β → List γ}
    {rows : List (List β)} (h : ∀ row ∈ rows, row.length = (f row).length) :
    List.Forall₂ R rows.flatten (rows.map f).flatten ↔
      ∀ row ∈ rows, List.Forall₂ R row (f row) := by
  constructor
  · intro hflat
    induction rows with
    | nil => simp
    | cons row rows ih =>
      rw [List.map_cons, List.flatten_cons, List.flatten_cons] at hflat
      have hlength := h row List.mem_cons_self
      have htake := List.forall₂_take row.length hflat
      have hdrop := List.forall₂_drop row.length hflat
      rw [List.take_left' rfl, List.take_left' hlength.symm] at htake
      rw [List.drop_left' rfl, List.drop_left' hlength.symm] at hdrop
      rw [List.forall_mem_cons]
      exact ⟨htake, ih (fun row hrow => h row (List.mem_cons_of_mem _ hrow)) hdrop⟩
  · intro hrows
    refine List.rel_flatten (List.forall₂_map_right_iff.2 ?_)
    exact List.forall₂_same.2 hrows

end LikelihoodRatio.Table
