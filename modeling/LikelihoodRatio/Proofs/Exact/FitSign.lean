/-
# The sign of the statistic of fit

In exact arithmetic the expected values, once they are rescaled to the number of observations, have
the sum that the counts have.  So the inequality of Gibbs holds: the statistic is not negative, and
it vanishes only if every count has the share of the observations that is expected of it
(`Comparable.statistic_rescaled_nonneg`, `Comparable.statistic_rescaled_eq_zero_iff`).

Expected values within the tolerance are not rescaled, and their statistic can be negative
(`Comparable.statisticOf_neg`), if only by what the missing scale makes of it.  The tail of the
distribution is asked for zero in place of a negative statistic (`ChiSquared.upperTail_larger`),
which hides no more than that.
-/
import LikelihoodRatio.Proofs.Binary64.Order
import LikelihoodRatio.Proofs.Exact.Fit
import LikelihoodRatio.Proofs.Exact.Gibbs

namespace LikelihoodRatio

/-- A value that is negative has the tail of zero. -/
lemma ChiSquared.upperTail_larger (value : Float) (df : Nat) :
    upperTail value df = upperTail (larger value 0.0) df := by
  rw [larger]
  split_ifs with hneg
  · have hpos : ¬0.0 < value := fun hpos =>
      Binary64.lt_irrefl _ (Binary64.lt_of_le_of_lt (Binary64.le_of_lt hneg) hpos)
    have hsure : survival (Float.ofNat df) value = survival (Float.ofNat df) 0.0 :=
      (if_neg hpos).trans (if_neg (Binary64.lt_irrefl 0.0)).symm
    rw [upperTail, upperTail, hsure]
  · rfl

namespace Fit

variable {expected : List ℝ} {observed : List Int}

namespace Comparable

/-- The rescaled values have the sum of the counts. -/
lemma sum_rescaled (h : Comparable expected observed) :
    (rescaled expected observed).sum = (observed.map Int.cast).sum := by
  rw [rescaled, List.sum_map_mul_right, List.map_id', mul_div_cancel₀ _ h.sum_pos.ne',
    Int.cast_list_sum]

/-- The rescaled values leave room for the counts: they vanish only if nothing is observed. -/
lemma admits_rescaled (h : Comparable expected observed) :
    List.Forall₂ Admits observed (rescaled expected observed) := by
  have hN : (0 : ℝ) ≤ observed.sum := Int.cast_nonneg h.sum_nonneg
  rw [rescaled, List.forall₂_map_right_iff, List.forall₂_iff_zip]
  refine ⟨h.length_eq.symm, fun {o e} hcell => ?_⟩
  obtain ⟨ho, he⟩ := List.of_mem_zip hcell
  have hpos := h.pos e he
  refine ⟨h.observed_nonneg o ho, mul_nonneg hpos.le (div_nonneg hN h.sum_pos.le), fun hzero => ?_⟩
  have hsum : observed.sum = 0 := by
    have hratio := (mul_eq_zero.1 hzero).resolve_left hpos.ne'
    exact_mod_cast (div_eq_zero_iff.1 hratio).resolve_right h.sum_pos.ne'
  exact h.eq_zero_of_sum_eq_zero hsum o ho

lemma statistic_rescaled_nonneg (h : Comparable expected observed) :
    0 ≤ LikelihoodRatio.statistic observed (rescaled expected observed) :=
  statistic_nonneg h.admits_rescaled h.sum_rescaled

/-- The statistic of the rescaled values vanishes only if the counts are in proportion to the
expected values. -/
lemma statistic_rescaled_eq_zero_iff (h : Comparable expected observed) :
    LikelihoodRatio.statistic observed (rescaled expected observed) = 0 ↔
      ∀ o e, (o, e) ∈ observed.zip expected → (o : ℝ) * expected.sum = e * observed.sum := by
  rw [statistic_eq_zero_iff h.admits_rescaled h.sum_rescaled, rescaled, List.forall₂_map_right_iff,
    List.forall₂_iff_zip, and_iff_right h.length_eq.symm]
  refine forall₂_congr fun o e => imp_congr_right fun _ => ?_
  rw [mul_div_assoc', eq_div_iff h.sum_pos.ne']

/-- Too many expected observations that are used as they are, in the proportions that are observed,
make the statistic negative. -/
lemma statisticOf_neg (h : Comparable expected observed)
    (hclose : |expected.sum - observed.sum| ≤ tolerance) (hN : 0 < observed.sum)
    (hmore : observed.sum < expected.sum)
    (hshares : ∀ o e, (o, e) ∈ observed.zip expected → (o : ℝ) * expected.sum = e * observed.sum) :
    statisticOf expected observed < 0 := by
  have hN' : (0 : ℝ) < observed.sum := Int.cast_pos.2 hN
  have hoff := h.statisticOf_sub_rescaled
  rw [if_neg (not_lt.2 hclose), h.statistic_rescaled_eq_zero_iff.2 hshares, sub_zero] at hoff
  rw [hoff]
  exact mul_neg_of_pos_of_neg (mul_pos two_pos hN') (sub_neg.2 (Real.log_lt_log hN' hmore))

end Comparable

/-- **The sign of the statistic of fit.**  In exact arithmetic, and for data that the test accepts,
let `S` be the sum of the expected values and `N` the number of observations.  If `S` and `N` differ
by more than the tolerance, the statistic is not negative, and it is zero exactly if every count
times `S` is its expected value times `N`, or nothing is observed.  Otherwise it is at least
`-3e-5`.  The tail of the distribution is that of the larger of the statistic and zero, which is at
most `3e-5` above the statistic. -/
theorem statistic_nonneg_of_rescaled (expected : List ℝ) (observed : List Int)
    (h : validate expected observed = .ok ()) :
    ∃ g : ℝ, statistic expected observed = .ok g ∧
      (tolerance < |expected.sum - observed.sum| → 0 ≤ g ∧
        (g = 0 ↔ (∀ o e, (o, e) ∈ observed.zip expected →
          (o : ℝ) * expected.sum = e * observed.sum) ∨ observed.sum = 0)) ∧
      (|expected.sum - observed.sum| ≤ tolerance → -3e-5 ≤ g) ∧
      |larger g 0.0 - g| ≤ 3e-5 ∧
      ∀ (value : Float) (df : Nat),
        ChiSquared.upperTail value df = ChiSquared.upperTail (larger value 0.0) df := by
  have hdata := validate_eq_ok_iff.1 h
  have hnonneg := hdata.statistic_rescaled_nonneg
  have hnear := abs_le.1 hdata.abs_statisticOf_sub_rescaled_le
  have hbelow : -3e-5 ≤ statisticOf expected observed := by linarith
  refine ⟨_, hdata.statistic_eq, fun hfar => ?_, fun _ => hbelow, ?_, ChiSquared.upperTail_larger⟩
  · rw [hdata.statisticOf_eq_rescaled hfar]
    refine ⟨hnonneg, hdata.statistic_rescaled_eq_zero_iff.trans
      (or_iff_left_of_imp fun hN o e hcell => ?_).symm⟩
    -- Nothing observed is in proportion to whatever is expected.
    rw [hdata.eq_zero_of_sum_eq_zero hN o (List.of_mem_zip hcell).1, hN, Int.cast_zero, zero_mul,
      mul_zero]
  · rw [larger_real, zero_real]
    rcases le_total 0 (statisticOf expected observed) with hpos | hneg
    · rw [max_eq_left hpos, sub_self, abs_zero]
      norm_num
    · rw [max_eq_right hneg, zero_sub, abs_neg, abs_of_nonpos hneg]
      linarith

/-- Proportions given in percent, which are rescaled to sixteen counts, and one expected observation
in a million too many, which makes the statistic negative. -/
theorem statistic_nonneg_of_rescaled_percent :
    (validate ([50, 25, 25] : List ℝ) [9, 4, 3] = .ok () ∧
      ∃ g : ℝ, statistic [50, 25, 25] [9, 4, 3] = .ok g ∧ 0 < g) ∧
    validate ([3.000003, 3.000003] : List ℝ) [3, 3] = .ok () ∧
      ∃ g : ℝ, statistic [3.000003, 3.000003] [3, 3] = .ok g ∧ -3e-5 ≤ g ∧ g < 0 := by
  have hfar : Comparable ([50, 25, 25] : List ℝ) [9, 4, 3] :=
    ⟨by decide, rfl, by norm_num [Arithmetic.isFinite], by decide⟩
  have hclose : Comparable ([3.000003, 3.000003] : List ℝ) [3, 3] :=
    ⟨by decide, rfl, by norm_num [Arithmetic.isFinite], by decide⟩
  refine ⟨⟨validate_eq_ok_iff.2 hfar, ?_⟩, validate_eq_ok_iff.2 hclose, ?_⟩
  · obtain ⟨g, hg, hsign, -⟩ :=
      statistic_nonneg_of_rescaled [50, 25, 25] [9, 4, 3] (validate_eq_ok_iff.2 hfar)
    obtain ⟨hnonneg, hzero⟩ := hsign (by norm_num [tolerance_real])
    refine ⟨g, hg, hnonneg.lt_of_ne' fun h => ?_⟩
    -- The first count is not half of the sixteen.
    rcases hzero.1 h with hshares | hnone
    · have := hshares 9 50 List.mem_cons_self
      norm_num at this
    · exact absurd hnone (by decide)
  · obtain ⟨g, hg, -, hbelow, -⟩ :=
      statistic_nonneg_of_rescaled [3.000003, 3.000003] [3, 3] (validate_eq_ok_iff.2 hclose)
    have hneg : statisticOf ([3.000003, 3.000003] : List ℝ) [3, 3] < 0 :=
      hclose.statisticOf_neg (by norm_num [tolerance_real, abs_le]) (by decide) (by norm_num)
        (by norm_num)
    obtain rfl : _ = g := Except.ok.inj (hclose.statistic_eq.symm.trans hg)
    exact ⟨_, hg, hbelow (by norm_num [tolerance_real, abs_le]), hneg⟩

end Fit

end LikelihoodRatio
