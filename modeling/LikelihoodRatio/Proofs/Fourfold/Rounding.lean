/-
# The score of independent events in binary64 arithmetic

Two events are independent in a table if the cross products of its cells are equal.  In exact
arithmetic their score is zero.  A machine computes what is expected of a cell as the product of two
sums divided by the total.  If the product of the cell and the total can be held, nothing is lost on
the way: every cell is as expected, every logarithm is that of one, and the score is zero
(`score_eq_zero_of_independent`).

If that product is rounded, the quotient can miss the cell, and what is left of the statistic has a
root that is far from zero: a table whose only cell holds 94906267 has a negative score
(`score_single_cell_neg`).
-/
import LikelihoodRatio.Proofs.Binary64.Lossless
import LikelihoodRatio.Proofs.Binary64.Sign
import LikelihoodRatio.Proofs.Fourfold.Basic

namespace LikelihoodRatio.Fourfold

open Arithmetic Binary64

/-! ### The statistic, cell by cell -/

section Cells

variable {α : Type} [Arithmetic α]

/-- The sum of the observations with A. -/
def rowA (f : Fourfold) : α := countSum [f.both, f.onlyA]

/-- The sum of the observations without A. -/
def rowRest (f : Fourfold) : α := countSum [f.onlyB, f.neither]

def colB (f : Fourfold) : α := countSum [f.both, f.onlyB]

def colRest (f : Fourfold) : α := countSum [f.onlyA, f.neither]

/-- The number of observations, added up in two rows. -/
def sum (f : Fourfold) : α := leftSum [f.rowA, f.rowRest]

lemma uncheckedStatistic_eq (f : Fourfold) :
    (f.toTable.uncheckedStatistic : α) =
      if (f.sum : α) == 0.0 then 0.0 else
        2.0 * (0.0 + term f.both (Margins.expectedOf f.sum f.rowA f.colB)
          + term f.onlyA (Margins.expectedOf f.sum f.rowA f.colRest)
          + term f.onlyB (Margins.expectedOf f.sum f.rowRest f.colB)
          + term f.neither (Margins.expectedOf f.sum f.rowRest f.colRest)) := rfl

end Cells

/-! ### Cells that are as expected -/

section Lossless

variable {ln : Float → Float}

lemma standsFor_leftSum_pair (ln : Float → Float) {x y : Float} {a b : ℤ} (hx : StandsFor x a)
    (hy : StandsFor y b) (ha : 0 ≤ a) (hb : 0 ≤ b) (h : a + b ≤ 2 ^ 53) : letI := binary64 ln
    StandsFor (leftSum [x, y]) (a + b : ℤ) := by
  have hfirst := standsFor_zero.add_intCast hx (abs_le.2 ⟨by linarith, by linarith⟩)
  rw [zero_add] at hfirst
  exact hfirst.add_intCast hy (abs_le.2 ⟨by linarith, h⟩)

lemma standsFor_countSum_pair (ln : Float → Float) {a b : ℤ} (ha : 0 ≤ a) (hb : 0 ≤ b)
    (h : a + b ≤ 2 ^ 53) : letI := binary64 ln
    StandsFor (countSum [a, b]) (a + b : ℤ) :=
  standsFor_leftSum_pair ln (standsFor_ofInt (abs_le.2 ⟨by linarith, by linarith⟩))
    (standsFor_ofInt (abs_le.2 ⟨by linarith, by linarith⟩)) ha hb h

/-- A cell that is as expected has the logarithm of one. -/
lemma term_eq_zero (hln : ln 1.0 = 0.0) {k : ℤ} (hk : 0 ≤ k) (hk' : k ≤ 2 ^ 53) {e : Float}
    (he : 0 < k → StandsFor e k) : letI := binary64 ln
    term k e = 0.0 := by
  change (if k = 0 then 0.0 else Float.ofInt k * ln (Float.ofInt k / e)) = 0.0
  rcases hk.eq_or_lt with rfl | hpos
  · exact if_pos rfl
  · have hcount := standsFor_ofInt (n := k) (abs_le.2 ⟨by linarith, hk'⟩)
    have hpos' : 0.0 < Float.ofInt k := by
      rw [pos_iff_value hcount.isFinite, hcount.value_eq]
      exact_mod_cast hpos
    rw [if_neg hpos.ne', hcount.div_eq_one (he hpos) (Int.cast_ne_zero.2 hpos.ne'), hln,
      mul_zero_of_pos hcount.isFinite hpos']

/-- What is expected of a cell is computed without loss if the product of the sums can be held. -/
lemma standsFor_expectedOf (ln : Float → Float) {k r c n : ℤ} {row col total : Float}
    (hrow : StandsFor row r) (hcol : StandsFor col c) (htotal : StandsFor total n) (hn : n ≠ 0)
    (hmul : r * c = k * n) (hk : |k| ≤ 2 ^ 53) (hn' : |n| ≤ 2 ^ 53)
    (hexact : Representable (k * n : ℤ)) : letI := binary64 ln
    StandsFor (Margins.expectedOf total row col) k := by
  have hlarge : |((k * n : ℤ) : ℚ)| ≤ safe := by
    have hle : |k * n| ≤ 2 ^ 106 := by
      rw [abs_mul]
      exact mul_le_mul hk hn' (abs_nonneg n) (by norm_num)
    have hle' : |((k * n : ℤ) : ℚ)| ≤ 2 ^ (106 : ℤ) := by exact_mod_cast hle
    exact hle'.trans (two_zpow_le_safe (by norm_num))
  have hproduct : StandsFor (row * col) (k * n : ℤ) :=
    hrow.mul hcol (by exact_mod_cast hmul) hexact hlarge
  have hne : (n : ℚ) ≠ 0 := Int.cast_ne_zero.2 hn
  refine hproduct.div htotal hne ?_ (representable_intCast hk) (abs_intCast_le_safe hk)
  rw [Int.cast_mul, mul_div_assoc, div_self hne, mul_one]

/-- The statistic of independent events vanishes if the product of each count and the total can be
held. -/
lemma uncheckedStatistic_eq_zero (hln : ln 1.0 = 0.0) {f : Fourfold} (h : f.Nonneg)
    (hcross : f.both * f.neither = f.onlyA * f.onlyB) (hmax : f.total ≤ 2 ^ 53)
    (hexact : ∀ count ∈ f.counts, Representable (count * f.total : ℤ)) : letI := binary64 ln
    (f.toTable.uncheckedStatistic : Float) = 0.0 := by
  let := binary64 ln
  rw [uncheckedStatistic_eq]
  obtain ⟨hboth, honlyA, honlyB, hneither⟩ := id h
  have htotal : f.total = f.both + f.onlyA + (f.onlyB + f.neither) := by
    rw [total]
    ring
  have hrowA : StandsFor (f.rowA : Float) (f.both + f.onlyA : ℤ) :=
    standsFor_countSum_pair ln hboth honlyA (by linarith)
  have hrowRest : StandsFor (f.rowRest : Float) (f.onlyB + f.neither : ℤ) :=
    standsFor_countSum_pair ln honlyB hneither (by linarith)
  have hcolB : StandsFor (f.colB : Float) (f.both + f.onlyB : ℤ) :=
    standsFor_countSum_pair ln hboth honlyB (by linarith)
  have hcolRest : StandsFor (f.colRest : Float) (f.onlyA + f.neither : ℤ) :=
    standsFor_countSum_pair ln honlyA hneither (by linarith)
  have hsum : StandsFor (f.sum : Float) f.total := by
    rw [htotal]
    exact standsFor_leftSum_pair ln hrowA hrowRest (by linarith) (by linarith) (by linarith)
  rcases eq_or_ne f.total 0 with hzero | hne
  · have hvalue : value f.sum = 0 := by rw [hsum.value_eq, hzero, Int.cast_zero]
    exact if_pos ((beq_zero_iff_value hsum.isFinite).2 hvalue)
  · have hvalue : value f.sum ≠ 0 := by
      rw [hsum.value_eq]
      exact Int.cast_ne_zero.2 hne
    rw [if_neg fun heq => hvalue ((beq_zero_iff_value hsum.isFinite).1 heq)]
    -- Each cell is the product of its margins divided by the total.
    have hcell {k r c : ℤ} {row col : Float} (hk : 0 ≤ k) (hk' : k ∈ f.counts) (hle : k ≤ f.total)
        (hrow : StandsFor row r) (hcol : StandsFor col c) (hmul : r * c = k * f.total) :
        term k (Margins.expectedOf f.sum row col) = 0.0 :=
      term_eq_zero hln hk (hle.trans hmax) fun _ =>
        standsFor_expectedOf ln hrow hcol hsum hne hmul (abs_le.2 ⟨by linarith, by linarith⟩)
          (abs_le.2 ⟨by linarith, hmax⟩) (hexact k hk')
    rw [hcell hboth (by simp [counts]) (by linarith) hrowA hcolB
        (by rw [htotal]; linear_combination -hcross),
      hcell honlyA (by simp [counts]) (by linarith) hrowA hcolRest
        (by rw [htotal]; linear_combination hcross),
      hcell honlyB (by simp [counts]) (by linarith) hrowRest hcolB
        (by rw [htotal]; linear_combination hcross),
      hcell hneither (by simp [counts]) (by linarith) hrowRest hcolRest
        (by rw [htotal]; linear_combination -hcross)]
    exact show (2.0 : Float) * (0.0 + 0.0 + 0.0 + 0.0 + 0.0) = 0.0 by decide +kernel

end Lossless

/-! ### The score -/

/-- **Independent events score zero where nothing is rounded.**  The sums are exact if the total has
53 bits, and what is expected of a cell is exact if the product of the cell and the total can be
held, as it can be up to `2 ^ 53`.  The logarithm may be any that vanishes at one. -/
theorem score_eq_zero_of_independent (ln : Float → Float) (hln : ln 1.0 = 0.0) (f : Fourfold)
    (h : f.Nonneg) (hcross : f.both * f.neither = f.onlyA * f.onlyB) (hmax : f.total ≤ 2 ^ 53)
    (hexact : ∀ count ∈ f.counts, Representable (count * f.total : ℤ)) : letI := binary64 ln
    (f.score : Except (Error Float) Float) = .ok 0.0 := by
  let := binary64 ln
  rw [score_eq_ok h, root, uncheckedStatistic_eq_zero hln h hcross hmax hexact]
  exact congrArg Except.ok (if_pos (show (0.0 : Float) ≤ 0.0 by decide +kernel))

/-- Events whose rates are equal, and a row without observations. -/
theorem score_eq_zero_of_independent_proportional : letI := binary64 fun x => x - 1.0
    Nonneg ⟨10, 20, 20, 40⟩ ∧ Nonneg ⟨0, 0, 3, 7⟩ ∧
      ((⟨10, 20, 20, 40⟩ : Fourfold).score : Except (Error Float) Float) = .ok 0.0 ∧
      ((⟨0, 0, 3, 7⟩ : Fourfold).score : Except (Error Float) Float) = .ok 0.0 := by
  have hln : (1.0 : Float) - 1.0 = 0.0 := by decide +kernel
  have hexact {f : Fourfold} (hf : ∀ count ∈ f.counts, |count * f.total| ≤ 2 ^ 53) :
      ∀ count ∈ f.counts, Representable (count * f.total : ℤ) := fun count hcount =>
    representable_intCast (hf count hcount)
  have h : Nonneg ⟨10, 20, 20, 40⟩ := ⟨by decide, by decide, by decide, by decide⟩
  have h' : Nonneg ⟨0, 0, 3, 7⟩ := ⟨by decide, by decide, by decide, by decide⟩
  exact ⟨h, h',
    score_eq_zero_of_independent (fun x => x - 1.0) hln _ h rfl (by decide) (hexact (by decide)),
    score_eq_zero_of_independent (fun x => x - 1.0) hln _ h' rfl (by decide) (hexact (by decide))⟩

/-- What is expected of the only cell of a table falls short of the cell by one unit in the last
place. -/
lemma ratio_single :
    Float.ofInt 94906267 / ((0.0 + Float.ofInt 94906267 + Float.ofInt 0)
      * (0.0 + Float.ofInt 94906267 + Float.ofInt 0)
      / (0.0 + (0.0 + Float.ofInt 94906267 + Float.ofInt 0)
        + (0.0 + Float.ofInt 0 + Float.ofInt 0))) = 1.0000000000000002 := by
  decide +kernel

lemma uncheckedStatistic_single (ln : Float → Float) : letI := binary64 ln
    ((⟨94906267, 0, 0, 0⟩ : Fourfold).toTable.uncheckedStatistic : Float) =
      2.0 * (0.0 + Float.ofInt 94906267 * ln 1.0000000000000002 + 0.0 + 0.0 + 0.0) := by
  let := binary64 ln
  have hsum : ¬(0.0 + (0.0 + Float.ofInt 94906267 + Float.ofInt 0)
      + (0.0 + Float.ofInt 0 + Float.ofInt 0) == 0.0) = true := by decide +kernel
  rw [← ratio_single]
  exact (uncheckedStatistic_eq _).trans (if_neg hsum)

/-- **A single cell whose square is rounded.**  The cross products of the table are both zero, and
yet its score is negative, whatever positive number the logarithm is shortly above one. -/
theorem score_single_cell_neg :
    ∃ f : Fourfold, f = ⟨94906267, 0, 0, 0⟩ ∧ f.Nonneg ∧
      (∀ count ∈ f.counts, count ≤ largestCount) ∧ f.both * f.neither = f.onlyA * f.onlyB ∧
      ∀ ln : Float → Float, ln 1.0 = 0.0 → 0.0 < ln 1.0000000000000002 → letI := binary64 ln
        ∃ s : Float, f.score = .ok s ∧ s < 0.0 := by
  have h : Nonneg ⟨94906267, 0, 0, 0⟩ := ⟨by decide, by decide, by decide, by decide⟩
  refine ⟨_, rfl, h, by decide, rfl, fun ln _ hpos => ?_⟩
  let := binary64 ln
  have hcount : StandsFor (Float.ofInt 94906267) (94906267 : ℤ) := standsFor_ofInt (by norm_num)
  have hone : 1 ≤ value (Float.ofInt 94906267) := by
    rw [hcount.value_eq]
    norm_num
  have htwo : StandsFor 2.0 (2 : ℤ) := by
    have heq : Float.ofInt 2 = 2.0 := by decide +kernel
    exact heq ▸ standsFor_ofInt (by norm_num)
  have hzero : (0.0 : Float) ≤ 0.0 := by decide +kernel
  have hterm := mul_pos_of_one_le hcount.isFinite hone hpos
  -- The other cells are empty, and add zeros to the sum.
  have hterms : ∀ x ∈ [Float.ofInt 94906267 * ln 1.0000000000000002, 0.0, 0.0, 0.0], 0.0 ≤ x := by
    simp [le_of_lt hterm, hzero]
  have hstat : (0.0 : Float) < (⟨94906267, 0, 0, 0⟩ : Fourfold).toTable.uncheckedStatistic := by
    rw [uncheckedStatistic_single]
    exact mul_pos_of_one_le htwo.isFinite (by rw [htwo.value_eq]; norm_num)
      ((foldl_add_nonneg hzero hterms).2.2 (.inr ⟨_, List.mem_cons_self, hterm⟩))
  have hrates : ¬Float.ofInt 0 / (Float.ofInt 0 + Float.ofInt 0) <
      Float.ofInt 94906267 / (Float.ofInt 94906267 + Float.ofInt 0) := by decide +kernel
  have hroot : (⟨94906267, 0, 0, 0⟩ : Fourfold).root =
      -Float.sqrt (⟨94906267, 0, 0, 0⟩ : Fourfold).toTable.uncheckedStatistic :=
    (if_neg (fun hle => lt_irrefl _ (lt_of_lt_of_le hstat hle))).trans (if_neg hrates)
  exact ⟨_, (score_eq_ok h).trans (congrArg _ hroot), neg_lt_zero (sqrt_pos hstat)⟩

end LikelihoodRatio.Fourfold
