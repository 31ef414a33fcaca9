/-
# Tables with the same statistic

The entropy form of the statistic does not tell rows from columns, and not one row or one column
from another.  So the independence test treats a table as it treats its transpose and every table
with the rows or the columns in another order (`sameTest_transpose`, `sameTest_perm`,
`sameTest_selectCols`), and two samples can be compared either way round.  Counts multiplied by a
positive number multiply the statistic by it (`entropyForm_multiply`).  All of this is in exact
arithmetic; rounded sums depend on their order.
-/
import LikelihoodRatio.Proofs.Exact.Entropy
import LikelihoodRatio.TwoSample

namespace LikelihoodRatio

/-- The independence test treats two tables alike: it accepts both or neither of them, and gives
them the same degrees of freedom and the same statistic. -/
structure SameTest (s t : Table) : Prop where
  accepted_iff : s.Accepted ℝ ↔ t.Accepted ℝ
  degreesOfFreedom_eq : t.Accepted ℝ → ∃ df : Nat,
    s.degreesOfFreedom = (.ok df : Except (Error ℝ) Nat) ∧
      t.degreesOfFreedom = (.ok df : Except (Error ℝ) Nat)
  statistic_eq : t.Accepted ℝ → (s.statistic : Except (Error ℝ) ℝ) = t.statistic

namespace Table

variable {s t : Table}

lemma WellFormed.statistic_real (h : t.WellFormed) :
    (t.statistic : Except (Error ℝ) ℝ) = .ok t.entropyForm := by
  rw [(accepted_real_iff.2 h).statistic_eq, h.statisticOf_eq_entropyForm]

end Table

namespace SameTest

open Table

variable {s t u : Table}

lemma of_wellFormed (hiff : s.WellFormed ↔ t.WellFormed)
    (hdf : t.WellFormed → (s.length - 1) * (s.width - 1) = (t.length - 1) * (t.width - 1))
    (hform : t.WellFormed → s.entropyForm = t.entropyForm) : SameTest s t where
  accepted_iff := by rw [accepted_real_iff, accepted_real_iff, hiff]
  degreesOfFreedom_eq h := by
    have ht := accepted_real_iff.1 h
    refine ⟨_, (hiff.2 ht).toShaped.degreesOfFreedom_eq_ok, ?_⟩
    rw [ht.toShaped.degreesOfFreedom_eq_ok, hdf ht]
  statistic_eq h := by
    have ht := accepted_real_iff.1 h
    rw [ht.statistic_real, (hiff.2 ht).statistic_real, hform ht]

lemma symm (h : SameTest s t) : SameTest t s where
  accepted_iff := h.accepted_iff.symm
  degreesOfFreedom_eq hs := by
    obtain ⟨df, hsdf, htdf⟩ := h.degreesOfFreedom_eq (h.accepted_iff.1 hs)
    exact ⟨df, htdf, hsdf⟩
  statistic_eq hs := (h.statistic_eq (h.accepted_iff.1 hs)).symm

lemma trans (h : SameTest s t) (h' : SameTest t u) : SameTest s u where
  accepted_iff := h.accepted_iff.trans h'.accepted_iff
  degreesOfFreedom_eq hu := by
    obtain ⟨df, htdf, hudf⟩ := h'.degreesOfFreedom_eq hu
    obtain ⟨df', hsdf, htdf'⟩ := h.degreesOfFreedom_eq (h'.accepted_iff.2 hu)
    rw [htdf, Except.ok.injEq] at htdf'
    exact ⟨df, htdf' ▸ hsdf, hudf⟩
  statistic_eq hu := (h.statistic_eq (h'.accepted_iff.2 hu)).trans (h'.statistic_eq hu)

lemma statistic_eq_ok (h : SameTest s t) {g : ℝ} (hg : s.statistic = .ok g) :
    t.statistic = .ok g := by
  have ht : t.Accepted ℝ := h.accepted_iff.1 (accepted_of_statistic_eq_ok hg)
  rw [← h.statistic_eq ht, hg]

end SameTest

namespace Table

variable {s t : Table}

/-! ### Rows in another order -/

lemma colTotals_perm (hperm : s.Perm t) (hwidth : s.width = t.width) :
    s.colTotals = t.colTotals := by
  simp only [colTotals, rowTotals, transpose, hwidth, List.map_map]
  exact List.map_congr_left fun j _ => (column_perm hperm j).sum_eq

lemma entropyForm_perm (hperm : s.Perm t) (hwidth : s.width = t.width) :
    s.entropyForm = t.entropyForm := by
  have hrows : lnMass s.rowTotals = lnMass t.rowTotals := lnMass_perm (hperm.map _)
  have htotal : s.total = t.total := hperm.flatten.sum_eq
  rw [entropyForm, lnMass_perm hperm.flatten, hrows, colTotals_perm hperm hwidth, htotal,
    entropyForm]

/-- The order of the rows does not matter. -/
lemma sameTest_perm (hperm : s.Perm t) : SameTest s t := by
  have hwidth (ht : t.WellFormed) : s.width = t.width :=
    width_eq (fun row hrow => ht.rectangular row (hperm.mem_iff.1 hrow)) (ht.perm hperm).ne_nil
  refine .of_wellFormed ⟨fun hs => hs.perm hperm.symm, fun ht => ht.perm hperm⟩ ?_ ?_
  · intro ht
    rw [hperm.length_eq, hwidth ht]
  · intro ht
    exact entropyForm_perm hperm (hwidth ht)

/-! ### Rows and columns exchanged -/

lemma Rectangular.entropyForm_transpose (h : t.Rectangular) (hw : 0 < t.width) :
    t.transpose.entropyForm = t.entropyForm := by
  have htotal : t.transpose.total = t.total := h.flatten_transpose_perm.sum_eq
  rw [entropyForm, lnMass_perm h.flatten_transpose_perm, h.colTotals_transpose hw, htotal,
    entropyForm, ← colTotals]
  ring

lemma Rectangular.wellFormed_transpose_iff (h : t.Rectangular) :
    t.transpose.WellFormed ↔ t.WellFormed := by
  constructor
  · intro ht
    have hw : 0 < t.width := by
      have := ht.two_le_length
      rw [length_transpose] at this
      omega
    have hback := ht.transpose
    rwa [h.transpose_transpose hw] at hback
  · exact WellFormed.transpose

/-- Rows and columns play the same part. -/
lemma sameTest_transpose (h : t.Rectangular) : SameTest t.transpose t := by
  refine .of_wellFormed h.wellFormed_transpose_iff ?_ ?_
  · intro ht
    rw [length_transpose, h.width_transpose ht.width_pos, Nat.mul_comm]
  · intro ht
    exact h.entropyForm_transpose ht.width_pos

/-! ### Columns in another order -/

/-- The columns are the rows of the transposed table. -/
lemma sameTest_selectCols (h : t.Rectangular) {order : List Nat}
    (horder : order.Perm (List.range t.width)) : SameTest (t.selectCols order) t :=
  ((sameTest_transpose (h.selectCols horder).1).symm.trans
    (sameTest_perm (h.transpose_selectCols_perm horder))).trans (sameTest_transpose h)

/-! ### Multiplied counts -/

lemma lnMass_multiply {m : Int} (hm : 0 < m) (counts : List Int) :
    lnMass (counts.map (m * ·)) =
      m * lnMass counts + m * Real.log m * ((counts.sum : Int) : ℝ) := by
  induction counts with
  | nil => simp [lnMass]
  | cons x counts ih =>
    have hx : ((m * x : Int) : ℝ) * Real.log (m * x : Int) =
        m * (x * Real.log x) + m * Real.log m * x := by
      rcases eq_or_ne x 0 with rfl | hx
      · simp
      · rw [Int.cast_mul, Real.log_mul (Int.cast_ne_zero.2 hm.ne') (Int.cast_ne_zero.2 hx)]
        ring
    simp only [lnMass, List.map_cons, List.sum_cons, Int.cast_add] at ih ⊢
    rw [ih, hx]
    ring

/-- Counts multiplied by a positive number multiply the statistic by it. -/
lemma Rectangular.entropyForm_multiply (h : t.Rectangular) {m : Int} (hm : 0 < m) :
    (t.multiply m).entropyForm = m * t.entropyForm := by
  have htotal : ((m * t.total : Int) : ℝ) * Real.log (m * t.total : Int) =
      m * (t.total * Real.log t.total) + m * Real.log m * t.total := by
    have hone := lnMass_multiply hm [t.total]
    simpa [lnMass] using hone
  -- The four sums grow by the same amount, twice up and twice down.
  rw [entropyForm, flatten_multiply, rowTotals_multiply, colTotals_multiply, total_multiply,
    lnMass_multiply hm, lnMass_multiply hm, lnMass_multiply hm, htotal, sum_rowTotals,
    h.sum_colTotals, ← total, entropyForm]
  ring

lemma accepted_multiply_iff {m : Int} (hm : 0 < m) :
    (t.multiply m).Accepted ℝ ↔ t.Accepted ℝ := by
  rw [accepted_real_iff, accepted_real_iff, WellFormed.multiply_iff hm]

lemma statistic_multiply {m : Int} (hm : 0 < m) {g : ℝ} (hg : t.statistic = .ok g) :
    (t.multiply m).statistic = .ok (m * g) := by
  have ht : t.WellFormed := accepted_real_iff.1 (accepted_of_statistic_eq_ok hg)
  rw [ht.statistic_real, Except.ok.injEq] at hg
  have hm' : (t.multiply m).WellFormed := (WellFormed.multiply_iff hm).2 ht
  rw [hm'.statistic_real, ht.rectangular.entropyForm_multiply hm, hg]

end Table

namespace TwoSample

lemma statistic_eq_ok_iff {first second : List Int} {g : ℝ} :
    statistic first second = .ok g ↔
      first.length = second.length ∧ Table.statistic [first, second] = .ok g := by
  rw [statistic, table, bind_eq_ok_iff]
  simp only [check_bind_eq_ok_iff, Check.sameLength_eq_ok_iff, pure_eq_ok_iff]
  constructor
  · rintro ⟨t, ⟨hlength, rfl⟩, hg⟩
    exact ⟨hlength, hg⟩
  · rintro ⟨hlength, hg⟩
    exact ⟨_, ⟨hlength, rfl⟩, hg⟩

lemma statistic_swap {first second : List Int} {g : ℝ} (hg : statistic first second = .ok g) :
    statistic second first = .ok g := by
  obtain ⟨hlength, hg⟩ := statistic_eq_ok_iff.1 hg
  exact statistic_eq_ok_iff.2
    ⟨hlength.symm, (Table.sameTest_perm (.swap second first [])).statistic_eq_ok hg⟩

end TwoSample

/-- **The entropy form and the symmetries of the statistic.**  In exact arithmetic the statistic of
an accepted table is made of sums of `x ln x` over cells, rows and columns.  The test treats alike
all tables with the rows or the columns in another order and the transposed table; two samples can
be compared either way round; and counts that are multiplied by a positive number multiply the
statistic by it. -/
theorem statistic_entropy_symmetric (t : Table) :
    (t.Accepted ℝ →
      (t.statistic : Except (Error ℝ) ℝ) =
        .ok (2 * (lnMass t.flatten - lnMass t.rowTotals - lnMass t.colTotals +
          t.total * Real.log t.total))) ∧
    (∀ s : Table, s.Perm t → SameTest s t) ∧
    (t.Rectangular → ∀ order : List Nat, order.Perm (List.range t.width) →
      SameTest (t.selectCols order) t) ∧
    (t.Rectangular → SameTest t.transpose t) ∧
    (∀ m : Int, 1 ≤ m → ((t.multiply m).Accepted ℝ ↔ t.Accepted ℝ) ∧
      ∀ g : ℝ, t.statistic = .ok g → (t.multiply m).statistic = .ok (m * g)) ∧
    (∀ (first second : List Int) (g : ℝ),
      TwoSample.statistic first second = .ok g ↔ TwoSample.statistic second first = .ok g) := by
  refine ⟨fun h => ?_, fun s => Table.sameTest_perm, fun h order => Table.sameTest_selectCols h,
    Table.sameTest_transpose, fun m hm => ?_, fun first second g => ?_⟩
  · exact (Table.accepted_real_iff.1 h).statistic_real
  · have hm' : 0 < m := by omega
    exact ⟨Table.accepted_multiply_iff hm', fun g => Table.statistic_multiply hm'⟩
  · exact ⟨TwoSample.statistic_swap, TwoSample.statistic_swap⟩

/-- A table with an empty cell, its columns rotated, and its counts tripled. -/
theorem statistic_entropy_symmetric_rotated :
    Table.Accepted ℝ [[10, 0, 12], [15, 7, 9]] ∧
      Table.Rectangular [[10, 0, 12], [15, 7, 9]] ∧
      [2, 0, 1].Perm (List.range (Table.width [[10, 0, 12], [15, 7, 9]])) ∧
      SameTest [[12, 10, 0], [9, 15, 7]] [[10, 0, 12], [15, 7, 9]] ∧
      SameTest [[10, 15], [0, 7], [12, 9]] [[10, 0, 12], [15, 7, 9]] ∧
      ∃ g : ℝ, Table.statistic [[10, 0, 12], [15, 7, 9]] = .ok g ∧
        Table.statistic [[30, 0, 36], [45, 21, 27]] = .ok (3 * g) := by
  have hwf : Table.WellFormed [[10, 0, 12], [15, 7, 9]] := by decide
  have hrect := hwf.rectangular
  have haccepted := Table.accepted_real_iff.2 hwf
  have horder : [2, 0, 1].Perm (List.range (Table.width [[10, 0, 12], [15, 7, 9]])) := by decide
  obtain ⟨hform, -, hcols, htranspose, hmultiply, -⟩ :=
    statistic_entropy_symmetric [[10, 0, 12], [15, 7, 9]]
  have hstatistic := hform haccepted
  have htripled := (hmultiply 3 (by decide)).2 _ hstatistic
  exact ⟨haccepted, hrect, horder, hcols hrect _ horder, htranspose hrect, _, hstatistic,
    by exact_mod_cast htripled⟩

end LikelihoodRatio
