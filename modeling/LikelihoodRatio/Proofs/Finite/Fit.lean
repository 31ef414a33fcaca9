/-
# Statistics of fits are finite numbers

The unit of the expected values is the largest of them, so that in this unit they add up to a
number that is neither too small nor too large (`between_unitSum`), wherever they lie between the
smallest number and the largest one.  The product of the two may well be infinite: it only decides
whether the values are rescaled, and the scale is small in either case (`within_lnScale`).

Without observations the scale has no logarithm, and every term is zero without one.
-/
import LikelihoodRatio.Proofs.Finite.Basic
import LikelihoodRatio.Proofs.Fit.Validity

namespace LikelihoodRatio.Fit

open Binary64

variable {ln : Float → Float} {expected xs : List Float} {observed : List Int} {s x y : Float}

/-! ### The unit -/

/-- Expected values are positive finite numbers. -/
def Positive (expected : List Float) : Prop := ∀ e ∈ expected, e.isFinite = true ∧ 0.0 < e

lemma larger_bounds (ln : Float → Float) (hx : x.isFinite = true) (hy : y.isFinite = true) :
    letI := binary64 ln
    (larger x y = x ∨ larger x y = y) ∧ value x ≤ value (larger x y) ∧
      value y ≤ value (larger x y) := by
  unfold larger
  split_ifs with hlt
  · exact ⟨.inr rfl, ((lt_iff_value hx hy).1 hlt).le, le_rfl⟩
  · exact ⟨.inl rfl, le_rfl, not_lt.1 fun hlt' => hlt ((lt_iff_value hx hy).2 hlt')⟩

/-- The largest number of a list is one of them, and at least each of them. -/
lemma foldl_larger_bounds (ln : Float → Float) (hs : s.isFinite = true)
    (hxs : ∀ x ∈ xs, x.isFinite = true) : letI := binary64 ln
    (xs.foldl larger s = s ∨ xs.foldl larger s ∈ xs) ∧ value s ≤ value (xs.foldl larger s) ∧
      ∀ x ∈ xs, value x ≤ value (xs.foldl larger s) := by
  let := binary64 ln
  induction xs generalizing s with
  | nil => exact ⟨.inl rfl, le_rfl, fun x hx => nomatch hx⟩
  | cons x xs ih =>
    rw [List.forall_mem_cons] at hxs
    obtain ⟨hor, hs', hx'⟩ := larger_bounds ln hs hxs.1
    have hfinite : (larger s x).isFinite = true := by
      rcases hor with hor | hor
      · rw [hor]
        exact hs
      · rw [hor]
        exact hxs.1
    obtain ⟨hmem, hle, hall⟩ := ih hfinite hxs.2
    rw [List.foldl_cons, List.forall_mem_cons]
    refine ⟨?_, hs'.trans hle, hx'.trans hle, hall⟩
    rcases hmem with hmem | hmem
    · rw [hmem, List.mem_cons]
      rcases hor with hor | hor
      · exact .inl hor
      · exact .inr (.inl hor)
    · exact .inr (List.mem_cons_of_mem x hmem)

lemma smallestNormal_eq (ln : Float → Float) :
    @smallestNormal Float (binary64 ln) = Float.ofBits 0x0010000000000000 := by
  change (2.2250738585072014e-308 : Float) = _
  decide +kernel

lemma value_smallestNormal (ln : Float → Float) :
    value (@smallestNormal Float (binary64 ln)) = 2 ^ (-1022 : ℤ) := by
  have hparts : parts (Float.ofBits 0x0010000000000000) =
      .finite .positive (2 ^ 52) (-1074) (by decide) := rfl
  have hcast : ((2 ^ 52 : ℕ) : ℚ) = 2 ^ (52 : ℤ) := by norm_num
  rw [smallestNormal_eq, value, hparts, rational_positive, hcast, ← zpow_add₀ two_ne_zero]
  rfl

lemma largest_bounds (ln : Float → Float) (h : Positive expected) : letI := binary64 ln
    (largest expected = smallestNormal ∨ largest expected ∈ expected) ∧
      (largest expected).isFinite = true ∧ 2 ^ (-1022 : ℤ) ≤ value (largest expected) ∧
      ∀ e ∈ expected, value e ≤ value (largest expected) := by
  let := binary64 ln
  have hnormal : (smallestNormal : Float).isFinite = true := by
    rw [smallestNormal_eq]
    rfl
  obtain ⟨hor, hle, hall⟩ := foldl_larger_bounds ln hnormal fun e he => (h e he).1
  rw [value_smallestNormal] at hle
  refine ⟨hor, ?_, hle, hall⟩
  rcases hor with hor | hmem
  · exact (congrArg Float.isFinite hor).trans hnormal
  · exact (h _ hmem).1

/-! ### The sum in units -/

section Unit

variable (ln : Float → Float) (h : Positive expected)

include h

lemma value_largest_pos : letI := binary64 ln
    0 < value (largest expected) :=
  (zpow_pos two_pos _).trans_le (largest_bounds ln h).2.2.1

/-- In the unit no value is larger than one, though small ones may vanish. -/
lemma ratio_bounds {e : Float} (he : e ∈ expected) : letI := binary64 ln
    Within 0 (e / largest expected) ∧ 0 ≤ value (e / largest expected) := by
  let := binary64 ln
  obtain ⟨-, hunit, -, hall⟩ := largest_bounds ln h
  obtain ⟨hfinite, hpos⟩ := h e he
  have hround := roundsTo_div hfinite hunit (value_largest_pos ln h).ne'
  have hnonneg : 0 ≤ value e / value (largest expected) :=
    div_nonneg ((pos_iff_value hfinite).1 hpos).le (value_largest_pos ln h).le
  have hwithin : Within 0 (e / largest expected) := by
    refine within_of_roundsTo hround ?_ (by norm_num) (by norm_num)
    rw [abs_of_nonneg hnonneg, zpow_zero]
    exact (div_le_one (value_largest_pos ln h)).2 (hall e he)
  exact ⟨hwithin, (hround.nearest hwithin.isFinite).ge_of_ge representable_zero hnonneg⟩

/-- In the unit the largest value is one, unless the unit is larger than all values. -/
lemma exists_ratio_ge (hne : expected ≠ []) : letI := binary64 ln
    ∃ e ∈ expected, 2 ^ (-52 : ℤ) ≤ value (e / largest expected) := by
  let := binary64 ln
  obtain ⟨hor, hunit, -, hall⟩ := largest_bounds ln h
  have hpos := value_largest_pos ln h
  obtain ⟨e, he, hratio⟩ : ∃ e ∈ expected, 2 ^ (-52 : ℤ) ≤ value e / value (largest expected) := by
    rcases hor with hnormal | hmem
    · obtain ⟨e, he⟩ := List.exists_mem_of_ne_nil expected hne
      obtain ⟨hfinite, hepos⟩ := h e he
      have hsmall := (representable_value hfinite).le_of_pos ((pos_iff_value hfinite).1 hepos)
      refine ⟨e, he, ?_⟩
      rw [le_div_iff₀ hpos, hnormal, value_smallestNormal, ← zpow_add₀ two_ne_zero]
      exact hsmall
    · refine ⟨_, hmem, ?_⟩
      rw [div_self hpos.ne']
      exact zpow_le_one_of_nonpos₀ one_le_two (by norm_num)
  have hround := roundsTo_div (h e he).1 hunit hpos.ne'
  exact ⟨e, he, (hround.nearest (ratio_bounds ln h he).1.isFinite).ge_of_ge
    (representable_two_zpow (by norm_num)) hratio⟩

lemma between_unitSum (hne : expected ≠ []) : letI := binary64 ln
    Between (-52) 54 (unitSum (largest expected) expected) := by
  let := binary64 ln
  have hratios : ∀ x ∈ expected.map (· / largest expected), Within (54 - 54) x ∧ 0 ≤ value x :=
    List.forall_mem_map.2 fun e he => ratio_bounds ln h he
  obtain ⟨-, hmem⟩ := value_le_foldl_add (within_zero 54) le_rfl hratios (by norm_num) (by norm_num)
  have hwithin := within_foldl_add (within_zero 54) (fun x hx => (hratios x hx).1) (by norm_num)
    (by norm_num)
  obtain ⟨e, he, hge⟩ := exists_ratio_ge ln h hne
  exact ⟨hwithin.isFinite, hge.trans (List.forall_mem_map.1 hmem e he),
    (le_abs_self _).trans hwithin.abs_le⟩

/-- The scale is small, whether or not the values are rescaled. -/
lemma within_lnScale {ln : Float → Float} (hln : LnBounded ln) (hne : expected ≠ [])
    {total : Float} (htotal : Between 0 117 total) : letI := binary64 ln
    Within 12 (lnScale expected total) := by
  let := binary64 ln
  have hunit : Within 10 (ln (largest expected)) :=
    hln.within (largest_bounds ln h).2.1
      ((pos_iff_value (largest_bounds ln h).2.1).2 (value_largest_pos ln h))
  unfold lnScale
  dsimp only
  split_ifs
  · have hdifference := (hln.within_of_between htotal).sub hunit (j := 11) (by norm_num)
      (by norm_num) (by norm_num) (by norm_num)
    exact hdifference.sub (hln.within_of_between (between_unitSum ln h hne)) (by norm_num)
      (by norm_num) (by norm_num) (by norm_num)
  · exact within_zero 12

end Unit

/-! ### The statistic -/

variable (hln : LnBounded ln) (h : Positive expected) (hobserved : ∀ o ∈ observed, IsCount o)

include hln h hobserved

/-- A term that is not zero has the logarithm of a total to rescale by. -/
lemma within_scaledTerm {o : Int} {e : Float} (hcell : (o, e) ∈ observed.zip expected) :
    letI := binary64 ln
    Within 77 (termOfLn o (ln e + lnScale expected (countSum observed))) := by
  obtain ⟨ho, he⟩ := List.of_mem_zip hcell
  refine within_termOfLn hln (hobserved o ho) fun hpos => ?_
  have hne : expected ≠ [] := List.ne_nil_of_mem he
  have hscale := within_lnScale h hln hne (between_countSum ln hobserved ho hpos)
  exact (hln.within (h e he).1 (h e he).2).add hscale (by norm_num) (by norm_num) (by norm_num)
    (by norm_num)

/-- **Fits.**  The statistic of counts against positive expected values is a finite number. -/
theorem isFinite_statisticOf : letI := binary64 ln
    (statisticOf expected observed).isFinite = true := by
  unfold statisticOf
  dsimp only
  refine (within_double (k := 131) ?_ (by norm_num) (by norm_num)).isFinite
  refine within_foldl_add (within_zero 131) ?_ (by norm_num) (by norm_num)
  intro x hx
  rw [← List.map_uncurry_zip_eq_zipWith] at hx
  obtain ⟨⟨o, e⟩, hcell, rfl⟩ := List.mem_map.1 hx
  exact within_scaledTerm hln h hobserved hcell

end LikelihoodRatio.Fit
