/-
# Expected values on another scale

In exact arithmetic the parts of which the logarithm of the scale is made, the largest expected
value and the sum in units of it, come together again as the sum `S` of the expected values
(`lnScale_real`).  Compared with values that are rescaled to the number `N` of observations, the
statistic is off by `2 N ln (N / S)` if the expected values are used as they are, and otherwise by
nothing (`Comparable.statisticOf_sub_rescaled`).  They are used as they are only if `S` is so close
to `N` that this is little (`abs_mul_log_sub_log_le`).

The rescaled values do not depend on the scale of the given ones (`rescaled_map_mul`), and a sum
does not depend on the order in which the data are listed.
-/
import LikelihoodRatio.Proofs.Exact.Basic
import LikelihoodRatio.Proofs.Fit.Validity

namespace LikelihoodRatio.Fit

open Arithmetic

/-! ### The scale -/

lemma tolerance_real : (tolerance : ℝ) = 1e-5 := rfl

lemma larger_real (x y : ℝ) : larger x y = max x y := by
  rw [larger]
  split_ifs with h
  · exact (max_eq_right h.le).symm
  · exact (max_eq_left (not_lt.1 h)).symm

lemma smallestNormal_pos : (0 : ℝ) < smallestNormal := by
  change (0 : ℝ) < 2.2250738585072014e-308
  rw [← Rat.cast_ofScientific, Rat.cast_pos]
  decide +kernel

lemma largest_pos (expected : List ℝ) : 0 < largest expected := by
  have hfold (s : ℝ) (hs : 0 < s) : 0 < expected.foldl larger s := by
    induction expected generalizing s with
    | nil => exact hs
    | cons e expected ih =>
      refine ih _ ?_
      rw [larger_real]
      exact lt_max_of_lt_left hs
  exact hfold _ smallestNormal_pos

lemma unitSum_real (unit : ℝ) (expected : List ℝ) :
    unitSum unit expected = expected.sum / unit := by
  rw [unitSum, leftSum_real]
  simp only [div_eq_mul_inv, List.sum_map_mul_right, List.map_id']

lemma rescales_real_iff (expected : List ℝ) (total : ℝ) :
    Rescales expected total ↔ tolerance < |expected.sum - total| := by
  rw [Rescales, unitSum_real, mul_div_cancel₀ _ (largest_pos expected).ne', lt_abs, lt_neg]

/-- The scale is left alone within the tolerance. -/
lemma lnScale_real {expected : List ℝ} (hsum : 0 < expected.sum) (total : ℝ) :
    lnScale expected total =
      if tolerance < |expected.sum - total| then Real.log total - Real.log expected.sum else 0 := by
  have hunit := largest_pos expected
  have hlog : Real.log (largest expected) + Real.log (expected.sum / largest expected) =
      Real.log expected.sum := by
    rw [← Real.log_mul hunit.ne' (div_pos hsum hunit).ne', mul_div_cancel₀ _ hunit.ne']
  rw [← hlog, ← zero_real, ← unitSum_real]
  refine if_congr (rescales_real_iff expected total) ?_ rfl
  change Real.log total - Real.log _ - Real.log _ = _
  ring

/-- Within the tolerance the scale of a positive number of observations hardly matters. -/
lemma abs_mul_log_sub_log_le {S N : ℝ} (hN : 1 ≤ N) (hclose : |S - N| ≤ tolerance) :
    |2 * N * (Real.log N - Real.log S)| ≤ 3e-5 := by
  rw [tolerance_real, abs_le] at hclose
  obtain ⟨hbelow, habove⟩ := hclose
  have hN' : 0 < N := by linarith
  have hS : 0 < S := by linarith
  -- A logarithm is at most its argument less one, on both sides of one.
  have hupper : N * (Real.log N - Real.log S) ≤ 1.5e-5 := by
    have hlog := Real.log_le_sub_one_of_pos (div_pos hN' hS)
    rw [Real.log_div hN'.ne' hS.ne'] at hlog
    have hratio : N * (N / S - 1) ≤ 1.5e-5 := by
      rw [div_sub_one hS.ne', mul_div_assoc', div_le_iff₀ hS]
      nlinarith
    exact (mul_le_mul_of_nonneg_left hlog hN'.le).trans hratio
  have hlower : -1.5e-5 ≤ N * (Real.log N - Real.log S) := by
    have hlog := Real.log_le_sub_one_of_pos (div_pos hS hN')
    rw [Real.log_div hS.ne' hN'.ne'] at hlog
    have hratio : N * (S / N - 1) = S - N := by field_simp
    have := mul_le_mul_of_nonneg_left hlog hN'.le
    rw [hratio] at this
    linarith
  rw [abs_le]
  constructor <;> linarith

/-! ### The statistic -/

/-- The sum of `o ln (o / e)`, for expected values on whatever scale. -/
noncomputable def divergence (expected : List ℝ) (observed : List Int) : ℝ :=
  ((observed.zip expected).map fun (o, e) => (o : ℝ) * (Real.log o - Real.log e)).sum

/-- The expected values on the scale of the counts. -/
noncomputable def rescaled (expected : List ℝ) (observed : List Int) : List ℝ :=
  expected.map (· * (observed.sum / expected.sum))

variable {expected expected' : List ℝ} {observed observed' : List Int}

lemma termOfLn_real (o : Int) (l : ℝ) : termOfLn o l = o * (Real.log o - l) := by
  rw [termOfLn]
  split_ifs with h
  · subst h
    norm_num
  · rfl

lemma sum_zip_fst (h : observed.length ≤ expected.length) :
    ((observed.zip expected).map fun cell : Int × ℝ => (cell.1 : ℝ)).sum = observed.sum := by
  rw [Int.cast_list_sum, ← List.map_fst_zip h, List.map_map, List.map_fst_zip h]
  rfl

/-- A factor of the expected values adds its logarithm for each observation. -/
lemma sum_zip_log_add (h : observed.length ≤ expected.length) (shift : ℝ) :
    ((observed.zip expected).map fun (o, e) => (o : ℝ) * (Real.log o - (Real.log e + shift))).sum =
      divergence expected observed - observed.sum * shift := by
  rw [← sum_zip_fst h, ← List.sum_map_mul_right, divergence, eq_sub_iff_add_eq, ← List.sum_map_add]
  exact congrArg List.sum (List.map_congr_left fun cell _ => by ring)

/-- What adds nothing to a sum can be left out of it. -/
lemma sum_map_filter {β : Type} {p : β → Bool} {f : β → ℝ} {xs : List β}
    (h : ∀ x ∈ xs, p x = false → f x = 0) : ((xs.filter p).map f).sum = (xs.map f).sum := by
  induction xs with
  | nil => rfl
  | cons x xs ih =>
    have hrest := ih fun y hy => h y (List.mem_cons_of_mem _ hy)
    cases hp : p x with
    | true =>
      rw [List.filter_cons_of_pos hp, List.map_cons, List.map_cons, List.sum_cons, List.sum_cons,
        hrest]
    | false =>
      have hx := h x List.mem_cons_self hp
      rw [List.filter_cons_of_neg (by simp [hp]), List.map_cons, List.sum_cons, hrest, hx, zero_add]

namespace Comparable

lemma pos (h : Comparable expected observed) : ∀ e ∈ expected, 0 < e := fun e he =>
  zero_real ▸ (h.expected_pos e he).2

lemma sum_pos (h : Comparable expected observed) : 0 < expected.sum := by
  refine List.sum_pos _ h.pos ?_
  rintro rfl
  exact absurd h.two_le_length (by decide)

lemma sum_nonneg (h : Comparable expected observed) : 0 ≤ observed.sum :=
  List.sum_nonneg h.observed_nonneg

/-- Where nothing is observed in all there is nothing in any category. -/
lemma eq_zero_of_sum_eq_zero (h : Comparable expected observed) (hN : observed.sum = 0) :
    ∀ o ∈ observed, o = 0 := fun o ho =>
  le_antisymm (hN ▸ List.single_le_sum h.observed_nonneg o ho) (h.observed_nonneg o ho)

lemma statisticOf_real (h : Comparable expected observed) :
    statisticOf expected observed =
      2 * (divergence expected observed -
        observed.sum * if tolerance < |expected.sum - observed.sum| then
          Real.log observed.sum - Real.log expected.sum else 0) := by
  rw [statisticOf, countSum_real, ← Int.cast_list_sum, lnScale_real h.sum_pos, leftSum_real,
    two_real, ← sum_zip_log_add h.length_eq.ge, List.map_zip_eq_zipWith]
  simp only [termOfLn_real]
  rfl

/-- The terms of the rescaled values, one for each category. -/
lemma statistic_rescaled_eq_sum (expected : List ℝ) (observed : List Int) :
    LikelihoodRatio.statistic observed (rescaled expected observed) =
      2 * ((observed.zip expected).map fun cell =>
        term cell.1 (cell.2 * (observed.sum / expected.sum))).sum := by
  rw [statistic_real, rescaled, List.zipWith_map_right, List.map_zip_eq_zipWith]
  rfl

lemma statistic_rescaled (h : Comparable expected observed) :
    LikelihoodRatio.statistic observed (rescaled expected observed) =
      2 * (divergence expected observed -
        observed.sum * (Real.log observed.sum - Real.log expected.sum)) := by
  rw [statistic_rescaled_eq_sum, ← sum_zip_log_add h.length_eq.ge]
  refine congrArg (2 * ·) (congrArg List.sum (List.map_congr_left ?_))
  rintro ⟨o, e⟩ hcell
  obtain ⟨ho, he⟩ := List.of_mem_zip hcell
  rcases eq_or_ne o 0 with rfl | ho'
  · simp [term_real]
  · have hN : (observed.sum : ℝ) ≠ 0 := Int.cast_ne_zero.2 fun hN =>
      ho' (h.eq_zero_of_sum_eq_zero hN o ho)
    have he' := (h.pos e he).ne'
    have hratio := div_ne_zero hN h.sum_pos.ne'
    rw [term_eq_sub o (mul_ne_zero he' hratio), Real.log_mul he' hratio,
      Real.log_div hN h.sum_pos.ne']
    ring

/-- The statistic of the rescaled values in one formula, over the categories with observations. -/
lemma statistic_rescaled_eq_sum_filter (h : Comparable expected observed) :
    LikelihoodRatio.statistic observed (rescaled expected observed) =
      2 * (((observed.zip expected).filter fun (o, _) => 0 < o).map fun (o, e) =>
        (o : ℝ) * Real.log (o * expected.sum / (e * observed.sum))).sum := by
  rw [statistic_rescaled_eq_sum, sum_map_filter]
  · refine congrArg (2 * ·) (congrArg List.sum (List.map_congr_left fun (o, e) _ => ?_))
    rw [term_real, mul_div_assoc', div_div_eq_mul_div]
  · rintro ⟨o, e⟩ hcell hpos
    have ho : o = 0 := by
      have := h.observed_nonneg o (List.of_mem_zip hcell).1
      have := of_decide_eq_false hpos
      omega
    simp [ho]

/-- By how much the statistic is off if the expected values are used as they are. -/
lemma statisticOf_sub_rescaled (h : Comparable expected observed) :
    statisticOf expected observed -
        LikelihoodRatio.statistic observed (rescaled expected observed) =
      if tolerance < |expected.sum - observed.sum| then 0 else
        2 * observed.sum * (Real.log observed.sum - Real.log expected.sum) := by
  rw [h.statisticOf_real, h.statistic_rescaled]
  split_ifs <;> ring

/-- Only within the tolerance, and if something is observed, can the statistic be off at all. -/
lemma statisticOf_eq_rescaled_iff (h : Comparable expected observed) :
    statisticOf expected observed =
        LikelihoodRatio.statistic observed (rescaled expected observed) ↔
      tolerance < |expected.sum - observed.sum| ∨ observed.sum = 0 ∨
        expected.sum = observed.sum := by
  rw [← sub_eq_zero, h.statisticOf_sub_rescaled]
  split_ifs with hfar
  · exact iff_of_true rfl (.inl hfar)
  · rw [or_iff_right hfar]
    rcases eq_or_ne observed.sum 0 with hN | hN
    · simp [hN]
    · have hN' : (0 : ℝ) < observed.sum := Int.cast_pos.2 (h.sum_nonneg.lt_of_ne' hN)
      rw [or_iff_right hN, mul_eq_zero, or_iff_right (mul_ne_zero two_ne_zero hN'.ne'), sub_eq_zero]
      constructor
      · intro hlog
        exact Real.log_injOn_pos h.sum_pos hN' hlog.symm
      · intro hsum
        rw [hsum]

lemma statisticOf_eq_rescaled (h : Comparable expected observed)
    (hfar : tolerance < |expected.sum - observed.sum|) :
    statisticOf expected observed =
      LikelihoodRatio.statistic observed (rescaled expected observed) :=
  h.statisticOf_eq_rescaled_iff.2 (.inl hfar)

/-- Without observations there is nothing to compare. -/
lemma statisticOf_eq_zero (h : Comparable expected observed) (hN : observed.sum = 0) :
    statisticOf expected observed = 0 := by
  rw [h.statisticOf_eq_rescaled_iff.2 (.inr (.inl hN)), h.statistic_rescaled_eq_sum_filter]
  simp [hN]

lemma abs_statisticOf_sub_rescaled_le (h : Comparable expected observed) :
    |statisticOf expected observed -
      LikelihoodRatio.statistic observed (rescaled expected observed)| ≤ 3e-5 := by
  rw [h.statisticOf_sub_rescaled]
  split_ifs with hfar
  · norm_num
  · rcases h.sum_nonneg.eq_or_lt with hN | hN
    · norm_num [← hN]
    · exact abs_mul_log_sub_log_le (Int.cast_one_le_of_pos hN) (not_lt.1 hfar)

/-! ### Other scales and other orders -/

lemma map_mul (h : Comparable expected observed) {c : ℝ} (hc : 0 < c) :
    Comparable (expected.map (c * ·)) observed where
  two_le_length := by rw [List.length_map]; exact h.two_le_length
  length_eq := by rw [List.length_map]; exact h.length_eq
  expected_pos := List.forall_mem_map.2 fun e he => ⟨rfl, zero_real ▸ mul_pos hc (h.pos e he)⟩
  observed_nonneg := h.observed_nonneg

end Comparable

lemma sum_map_mul_left (c : ℝ) (expected : List ℝ) :
    (expected.map (c * ·)).sum = c * expected.sum := by
  rw [List.sum_map_mul_left, List.map_id']

/-- The rescaled values do not depend on the scale of the given ones. -/
lemma rescaled_map_mul {c : ℝ} (hc : 0 < c) (expected : List ℝ) (observed : List Int) :
    rescaled (expected.map (c * ·)) observed = rescaled expected observed := by
  rw [rescaled, rescaled, sum_map_mul_left, List.map_map]
  refine List.map_congr_left fun e _ => ?_
  change c * e * (observed.sum / (c * expected.sum)) = _
  rw [mul_comm c expected.sum, ← div_div, mul_div_assoc']
  field_simp

/-- The same data in another order. -/
structure Reordered (expected' : List ℝ) (observed' : List Int) (expected : List ℝ)
    (observed : List Int) : Prop where
  length_eq : expected'.length = observed'.length
  perm : (observed'.zip expected').Perm (observed.zip expected)

namespace Reordered

lemma expected_perm (hr : Reordered expected' observed' expected observed)
    (h : Comparable expected observed) : expected'.Perm expected := by
  have := hr.perm.map Prod.snd
  rwa [List.map_snd_zip hr.length_eq.le, List.map_snd_zip h.length_eq.le] at this

lemma observed_perm (hr : Reordered expected' observed' expected observed)
    (h : Comparable expected observed) : observed'.Perm observed := by
  have := hr.perm.map Prod.fst
  rwa [List.map_fst_zip hr.length_eq.ge, List.map_fst_zip h.length_eq.ge] at this

lemma comparable (hr : Reordered expected' observed' expected observed)
    (h : Comparable expected observed) : Comparable expected' observed' where
  two_le_length := (hr.expected_perm h).length_eq ▸ h.two_le_length
  length_eq := hr.length_eq
  expected_pos e he := h.expected_pos e ((hr.expected_perm h).mem_iff.1 he)
  observed_nonneg o ho := h.observed_nonneg o ((hr.observed_perm h).mem_iff.1 ho)

lemma statisticOf_eq (hr : Reordered expected' observed' expected observed)
    (h : Comparable expected observed) :
    statisticOf expected' observed' = statisticOf expected observed := by
  have hdivergence : divergence expected' observed' = divergence expected observed :=
    (hr.perm.map _).sum_eq
  rw [(hr.comparable h).statisticOf_real, h.statisticOf_real, hdivergence,
    (hr.expected_perm h).sum_eq, (hr.observed_perm h).sum_eq]

end Reordered

/-- **The scale of the expected values.**  In exact arithmetic, and for data that the test accepts,
let `S` be the sum of the expected values and `N` the number of observations.  The statistic is that
of the expected values times `N / S`, unless `S` and `N` differ by no more than the tolerance and
something is observed; then it is off by at most `3e-5`.  Another scale of the expected values
changes nothing if both sums are outside the tolerance, and not more than `6e-5` in any case.  The
order of the data does not matter. -/
theorem statistic_scale_invariant (expected : List ℝ) (observed : List Int)
    (h : validate expected observed = .ok ()) :
    ∃ g : ℝ, statistic expected observed = .ok g ∧
      LikelihoodRatio.statistic observed (rescaled expected observed) =
        2 * (((observed.zip expected).filter fun (o, _) => 0 < o).map fun (o, e) =>
          (o : ℝ) * Real.log (o * expected.sum / (e * observed.sum))).sum ∧
      (g = LikelihoodRatio.statistic observed (rescaled expected observed) ↔
        tolerance < |expected.sum - observed.sum| ∨ observed.sum = 0 ∨
          expected.sum = observed.sum) ∧
      (observed.sum = 0 → g = 0) ∧
      |g - LikelihoodRatio.statistic observed (rescaled expected observed)| ≤ 3e-5 ∧
      (∀ c : ℝ, 0 < c → ∃ g' : ℝ, statistic (expected.map (c * ·)) observed = .ok g' ∧
        (tolerance < |expected.sum - observed.sum| →
          tolerance < |c * expected.sum - observed.sum| → g' = g) ∧
        |g' - g| ≤ 6e-5) ∧
      ∀ (expected' : List ℝ) (observed' : List Int), expected'.length = observed'.length →
        (observed'.zip expected').Perm (observed.zip expected) →
        statistic expected' observed' = .ok g := by
  have hdata := validate_eq_ok_iff.1 h
  have hnear := hdata.abs_statisticOf_sub_rescaled_le
  refine ⟨statisticOf expected observed, hdata.statistic_eq, hdata.statistic_rescaled_eq_sum_filter,
    hdata.statisticOf_eq_rescaled_iff, hdata.statisticOf_eq_zero, hnear, fun c hc => ?_,
    fun e' o' hlength hperm => ?_⟩
  · have hdata' := hdata.map_mul hc
    have hnear' := hdata'.abs_statisticOf_sub_rescaled_le
    rw [rescaled_map_mul hc] at hnear'
    refine ⟨_, hdata'.statistic_eq, fun hfar hfar' => ?_, ?_⟩
    · rw [hdata.statisticOf_eq_rescaled hfar, ← rescaled_map_mul hc]
      refine hdata'.statisticOf_eq_rescaled ?_
      rwa [sum_map_mul_left]
    · rw [abs_le] at hnear hnear' ⊢
      constructor <;> linarith
  · have hr : Reordered e' o' expected observed := ⟨hlength, hperm⟩
    rw [(hr.comparable hdata).statistic_eq, hr.statisticOf_eq hdata]

/-- Proportions given in percent, compared with sixteen counts: the same statistic for fractions,
and for the last two categories exchanged. -/
theorem statistic_scale_invariant_percent :
    validate ([50, 25, 25] : List ℝ) [9, 4, 3] = .ok () ∧
      ∃ g : ℝ, statistic [50, 25, 25] [9, 4, 3] = .ok g ∧
        g = LikelihoodRatio.statistic [9, 4, 3] [8, 4, 4] ∧
        statistic [1 / 2, 1 / 4, 1 / 4] [9, 4, 3] = .ok g ∧
        statistic [50, 25, 25] [9, 3, 4] = .ok g := by
  have hdata : validate ([50, 25, 25] : List ℝ) [9, 4, 3] = .ok () :=
    validate_eq_ok_iff.2 ⟨by decide, rfl, by norm_num [Arithmetic.isFinite], by decide⟩
  obtain ⟨g, hg, -, hrescaled, -, -, hscale, hperm⟩ :=
    statistic_scale_invariant [50, 25, 25] [9, 4, 3] hdata
  obtain ⟨g', hg', heq, -⟩ := hscale (1 / 100) (by norm_num)
  have hfractions : g' = g := heq (by norm_num [tolerance_real]) (by norm_num [tolerance_real])
  have hcounts : g = LikelihoodRatio.statistic [9, 4, 3] [8, 4, 4] := by
    rw [hrescaled.2 (.inl (by norm_num [tolerance_real])), rescaled]
    norm_num
  have hexchanged := hperm [50, 25, 25] [9, 3, 4] rfl ((List.Perm.swap _ _ []).cons _)
  rw [hfractions] at hg'
  norm_num at hg'
  refine ⟨hdata, g, hg, hcounts, ?_, hexchanged⟩
  norm_num
  exact hg'

end LikelihoodRatio.Fit
