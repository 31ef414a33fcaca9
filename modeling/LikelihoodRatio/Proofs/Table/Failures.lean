/-
# Tables that the independence test refuses

A table is looked at in a fixed order: its rows and columns are counted, their lengths compared, the
cells looked at row by row, and then the sums of the rows and of the columns.  What is reported is
the first fault in this order (`FirstFault`), and a table without fault has an answer
(`fails_with_first_fault`).

Whether a row is empty is decided by its sum.  The sum is rounded, but not to zero: a sum of numbers
that are not negative vanishes only if all of them do, however many and however large they are
(`countSum_beq_zero_eq_false_iff_exists`).
-/
import LikelihoodRatio.Proofs.Binary64.Sign
import LikelihoodRatio.Proofs.Failures
import LikelihoodRatio.Proofs.Table.Decision

namespace LikelihoodRatio

open Arithmetic Binary64

/-! ### Sums of counts -/

section Counts

variable {counts : List Int}

lemma zero_lt_ofInt {n : Int} (hn : 0 < n) : 0.0 < Float.ofInt n := by
  obtain ⟨k, rfl⟩ := Int.eq_ofNat_of_zero_le hn.le
  exact zero_lt_ofNat (Int.natCast_pos.1 hn)

lemma zero_le_ofInt {n : Int} (hn : 0 ≤ n) : 0.0 ≤ Float.ofInt n := by
  rcases hn.eq_or_lt with rfl | hpos
  · exact show (0.0 : Float) ≤ Float.ofInt 0 by decide +kernel
  · exact le_of_lt (zero_lt_ofInt hpos)

/-- Of counts, all but the zeros are positive. -/
lemma exists_pos_iff (h : ∀ count ∈ counts, 0 ≤ count) :
    (∃ count ∈ counts, 0 < count) ↔ ¬∀ count ∈ counts, count = 0 := by
  push Not
  exact exists_congr fun count => and_congr_right fun hcount => (h count hcount).lt_iff_ne'

/-- A sum of counts is told from zero if one of them is positive. -/
lemma countSum_beq_zero_eq_false_iff_exists (ln : Float → Float)
    (h : ∀ count ∈ counts, 0 ≤ count) : letI := binary64 ln
    (countSum counts == (0.0 : Float)) = false ↔ ∃ count ∈ counts, 0 < count := by
  have hzero : ¬(0.0 : Float) < 0.0 := lt_irrefl _
  have hpos (count : Int) (hcount : count ∈ counts) : 0.0 < Float.ofInt count ↔ 0 < count := by
    rcases (h count hcount).eq_or_lt with rfl | hlt
    · exact iff_of_false (by decide +kernel) (by decide)
    · exact iff_of_true (zero_lt_ofInt hlt) hlt
  obtain ⟨hsum, hpos'⟩ := foldl_add_nonneg (show (0.0 : Float) ≤ 0.0 by decide +kernel)
    (List.forall_mem_map.2 fun count hcount => zero_le_ofInt (h count hcount))
  refine (beq_zero_eq_false_iff hsum).trans (hpos'.trans ?_)
  simp only [or_iff_right hzero, List.mem_map, exists_exists_and_eq_and]
  exact exists_congr fun count => and_congr_right (hpos count)

end Counts

namespace Table

/-- A rectangular table of counts with something counted in each row and each column. -/
structure Occupied (t : Table) : Prop extends Shaped t where
  row_pos : ∀ row ∈ t, ∃ count ∈ row, 0 < count
  col_pos : ∀ col ∈ t.transpose, ∃ count ∈ col, 0 < count

/-- The first thing that is wrong with a table. -/
inductive FirstFault (t : Table) : Error Float → Prop where
  | rows (h : t.length < 2) : FirstFault t (.tooFewCategories 2 t.length)
  | columns (hrows : 2 ≤ t.length) (h : t.width < 2) : FirstFault t (.tooFewCategories 2 t.width)
  | length {i : Nat} {row : List Int} (hrows : 2 ≤ t.length) (hcols : 2 ≤ t.width)
      (hrow : FirstAt (fun row => row.length ≠ t.width) t i row) :
      FirstFault t (.lengthMismatch t.width row.length)
  | negative {i j : Nat} {row : List Int} {value : Int} (hrows : 2 ≤ t.length)
      (hcols : 2 ≤ t.width) (hrect : t.Rectangular)
      (hrow : FirstAt (fun row => ∃ count ∈ row, count < 0) t i row)
      (hcell : FirstAt (fun count => count < 0) row j value) :
      FirstFault t (.negativeCount (i * t.width + j) value)
  | emptyRow {i : Nat} {row : List Int} (hshape : t.Shaped)
      (hrow : FirstAt (fun row => ∀ count ∈ row, count = 0) t i row) :
      FirstFault t (.degenerateMarginal (.row i))
  | emptyColumn {j : Nat} {col : List Int} (hshape : t.Shaped)
      (hrows : ∀ row ∈ t, ∃ count ∈ row, 0 < count)
      (hcol : FirstAt (fun col => ∀ count ∈ col, count = 0) t.transpose j col) :
      FirstFault t (.degenerateMarginal (.column j))

variable {t : Table}

/-- The sums decide which row is the first one without observations. -/
lemma firstAt_rowSums_iff {rows : Table} (h : ∀ row ∈ rows, ∀ count ∈ row, 0 ≤ count) {i : Nat} :
    (∃ s : Float, FirstAt (fun s => (s == 0.0) = true) rows.rowSums i s) ↔
      ∃ row, FirstAt (fun row => ∀ count ∈ row, count = 0) rows i row := by
  have hempty (row : List Int) (hrow : row ∈ rows) :
      ((countSum row : Float) == 0.0) = true ↔ ∀ count ∈ row, count = 0 := by
    rw [← not_iff_not, Bool.not_eq_true, ← exists_pos_iff (h row hrow)]
    exact countSum_beq_zero_eq_false_iff_exists Float.log (h row hrow)
  simp only [rowSums, firstAt_map_iff]
  rw [exists_comm]
  simp only [exists_and_left, exists_eq', and_true, firstAt_congr hempty]

/-- Margins are refused for the first row without observations, or for the first column if there is
no such row. -/
lemma marginals_eq_error_iff (h : t.Shaped) {e : Error Float} :
    Check.marginals t.rowSums t.colSums = .error e ↔
      (∃ i row, FirstAt (fun row => ∀ count ∈ row, count = 0) t i row ∧
        .degenerateMarginal (.row i) = e) ∨
      (∀ row ∈ t, ∃ count ∈ row, 0 < count) ∧
        ∃ j col, FirstAt (fun col => ∀ count ∈ col, count = 0) t.transpose j col ∧
          .degenerateMarginal (.column j) = e := by
  rw [Check.marginals_eq_error_iff, colSums_eq_rowSums_transpose]
  simp only [exists_and_right, firstAt_rowSums_iff fun row => h.nonneg_row,
    firstAt_rowSums_iff fun col => h.nonneg_col]
  rw [rowSums, List.forall_mem_map]
  have hpos : (∀ row ∈ t, ((countSum row : Float) == 0.0) = false) ↔
      ∀ row ∈ t, ∃ count ∈ row, 0 < count := forall₂_congr fun row hrow =>
    countSum_beq_zero_eq_false_iff_exists Float.log (h.nonneg_row hrow)
  rw [hpos]

theorem validate_eq_error_iff {e : Error Float} :
    (t.validate : Except (Error Float) (Margins Float)) = .error e ↔ FirstFault t e := by
  rw [validate, check_bind_eq_error_iff, check_bind_eq_error_iff, Check.rectangular_eq_ok_iff,
    Check.rectangular_eq_error_iff, Check.cells_eq_error_iff, Check.cells_eq_ok_iff]
  constructor
  · rintro ((⟨h, rfl⟩ | ⟨hrows, h, rfl⟩ | ⟨hrows, hcols, i, row, hrow, rfl⟩) |
      ⟨⟨hrows, hcols, hrect⟩, ⟨i, row, j, value, hrow, hcell, rfl⟩ | ⟨hnonneg, h⟩⟩)
    · exact .rows h
    · exact .columns hrows h
    · exact .length hrows hcols hrow
    · exact .negative hrows hcols hrect hrow hcell
    · have hshape : t.Shaped := ⟨hrows, hcols, hrect, hnonneg⟩
      rcases (marginals_eq_error_iff hshape).1 (bind_pure_eq_error_iff.1 h) with
        ⟨i, row, hrow, rfl⟩ | ⟨hpos, j, col, hcol, rfl⟩
      · exact .emptyRow hshape hrow
      · exact .emptyColumn hshape hpos hcol
  · intro h
    cases h with
    | rows h => exact .inl (.inl ⟨h, rfl⟩)
    | columns hrows h => exact .inl (.inr (.inl ⟨hrows, h, rfl⟩))
    | length hrows hcols hrow => exact .inl (.inr (.inr ⟨hrows, hcols, _, _, hrow, rfl⟩))
    | negative hrows hcols hrect hrow hcell =>
      exact .inr ⟨⟨hrows, hcols, hrect⟩, .inl ⟨_, _, _, _, hrow, hcell, rfl⟩⟩
    | emptyRow hshape hrow =>
      refine .inr ⟨⟨hshape.two_le_length, hshape.two_le_width, hshape.rectangular⟩,
        .inr ⟨hshape.nonneg, bind_pure_eq_error_iff.2 ((marginals_eq_error_iff hshape).2 ?_)⟩⟩
      exact .inl ⟨_, _, hrow, rfl⟩
    | emptyColumn hshape hpos hcol =>
      refine .inr ⟨⟨hshape.two_le_length, hshape.two_le_width, hshape.rectangular⟩,
        .inr ⟨hshape.nonneg, bind_pure_eq_error_iff.2 ((marginals_eq_error_iff hshape).2 ?_)⟩⟩
      exact .inr ⟨hpos, _, _, hcol, rfl⟩

lemma accepted_iff_occupied : t.Accepted Float ↔ t.Occupied := by
  have hrow (row : List Int) (hnonneg : ∀ count ∈ row, 0 ≤ count) :
      ((countSum row : Float) == 0.0) = false ↔ ∃ count ∈ row, 0 < count :=
    countSum_beq_zero_eq_false_iff_exists Float.log hnonneg
  constructor
  · rintro ⟨m, hm⟩
    obtain ⟨⟨hshaped, hrows, hcols⟩, -⟩ := validate_eq_ok_iff.1 hm
    exact ⟨hshaped, fun row hmem => (hrow row (hshaped.nonneg_row hmem)).1 (hrows row hmem),
      fun col hmem => (hrow col (hshaped.nonneg_col hmem)).1 (hcols col hmem)⟩
  · intro h
    exact ⟨_, validate_eq_ok_iff.2 ⟨⟨h.toShaped,
      fun row hmem => (hrow row (h.nonneg_row hmem)).2 (h.row_pos row hmem),
      fun col hmem => (hrow col (h.nonneg_col hmem)).2 (h.col_pos col hmem)⟩, rfl⟩⟩

/-! ### Operations on a table -/

/-- Something is computed for a table without fault, and the first fault of any other one is
reported. -/
structure ReportsFirstFault {β : Type} (t : Table) (r : Except (Error Float) β) : Prop where
  ok_iff : (∃ b, r = .ok b) ↔ t.Occupied
  error_iff : ∀ e, r = .error e ↔ FirstFault t e

lemma reportsFirstFault_validate (t : Table) :
    ReportsFirstFault t (t.validate : Except (Error Float) (Margins Float)) :=
  ⟨accepted_iff_occupied, fun _ => validate_eq_error_iff⟩

namespace ReportsFirstFault

variable {β γ : Type} {r : Except (Error Float) β}

lemma bind_pure (h : ReportsFirstFault t r) (f : β → γ) :
    ReportsFirstFault t (r >>= fun b => pure (f b)) :=
  ⟨bind_pure_eq_ok_iff.trans h.ok_iff, fun e => bind_pure_eq_error_iff.trans (h.error_iff e)⟩

/-- What fails together reports the same. -/
lemma of_cases (h : ReportsFirstFault t r) {r' : Except (Error Float) γ}
    (hcases : (∃ e, r = .error e ∧ r' = .error e) ∨ ∃ b c, r = .ok b ∧ r' = .ok c) :
    ReportsFirstFault t r' := by
  obtain ⟨hok, herror⟩ := h
  rcases hcases with ⟨e, rfl, rfl⟩ | ⟨b, c, rfl, rfl⟩
  · exact ⟨by simpa using hok, by simpa using herror⟩
  · exact ⟨by simpa using hok, by simpa using herror⟩

end ReportsFirstFault

lemma reportsFirstFault_statistic (t : Table) :
    ReportsFirstFault t (t.statistic : Except (Error Float) Float) :=
  (reportsFirstFault_validate t).bind_pure _

lemma reportsFirstFault_pValue (t : Table) : ReportsFirstFault t t.pValue := by
  refine t.reportsFirstFault_statistic.of_cases ?_
  rcases t.evaluate_cases with ⟨e, hg, hp, -⟩ | ⟨g, p, hg, hp, -⟩
  · exact .inl ⟨e, hg, hp⟩
  · exact .inr ⟨g, p, hg, hp⟩

lemma reportsFirstFault_evaluate (t : Table) : ReportsFirstFault t t.evaluate := by
  refine t.reportsFirstFault_statistic.of_cases ?_
  rcases t.evaluate_cases with ⟨e, hg, -, ho⟩ | ⟨g, p, hg, -, ho⟩
  · exact .inl ⟨e, hg, ho⟩
  · exact .inr ⟨g, _, hg, ho⟩

/-- **A table is refused for its first fault.**  The statistic, the p-value, the outcome and the
expected counts of a table exist if it is rectangular, with at least two rows and two columns,
without negative cells, and with something counted in each row and each column.  For any other table
all of them report the first fault. -/
theorem fails_with_first_fault (t : Table) :
    ReportsFirstFault t (t.statistic : Except (Error Float) Float) ∧
      ReportsFirstFault t t.pValue ∧ ReportsFirstFault t t.evaluate ∧
      ReportsFirstFault t (t.expectedCounts : Except (Error Float) (List (List Float))) :=
  ⟨t.reportsFirstFault_statistic, t.reportsFirstFault_pValue, t.reportsFirstFault_evaluate,
    (reportsFirstFault_validate t).bind_pure _⟩

end Table

end LikelihoodRatio
