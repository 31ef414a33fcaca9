/-
# Statistics are finite numbers

Data that a test accepts have a statistic that is a finite number, whatever their sizes are
(`statistics_isFinite`).  Infinite and undefined numbers do come up on the way: a product of the
unit and the sum in units that is too large, the logarithm of no observations at all, the rate in an
empty row.  None of them reaches a sum.
-/
import LikelihoodRatio.Proofs.Finite.Fit
import LikelihoodRatio.Proofs.Finite.Table

namespace LikelihoodRatio

open Binary64

/-- **Statistics are finite.**  The logarithm may be any that stays between -800 and 800 at the
positive finite numbers.  The statistic of expected values and counts that a test of fit accepts is
finite, their sum in units is positive and finite, and so is each term.  The statistic of a table
that the independence test accepts is finite, and so are the statistic and the score of any fourfold
table.  A cell that holds something has an expected value that is positive and finite. -/
theorem statistics_isFinite {ln : Float → Float} (hln : LnBounded ln) :
    letI := binary64 ln
    (∀ (expected : List Float) (observed : List Int), Fit.validate expected observed = .ok () →
      (∀ o ∈ observed, o ≤ largestCount) →
        (∃ g : Float, Fit.statistic expected observed = .ok g ∧ g.isFinite = true) ∧
        (0.0 < Fit.unitSum (Fit.largest expected) expected ∧
          (Fit.unitSum (Fit.largest expected) expected).isFinite = true) ∧
        ∀ (o : Int) (e : Float), (o, e) ∈ observed.zip expected →
          (termOfLn o (ln e + Fit.lnScale expected (countSum observed))).isFinite = true) ∧
    (∀ (t : Table) (m : Margins Float), t.validate = .ok m →
      (∀ row ∈ t, ∀ count ∈ row, count ≤ largestCount) →
        ∃ g : Float, t.statistic = .ok g ∧ g.isFinite = true) ∧
    (∀ f : Fourfold, (∀ o ∈ f.counts, 0 ≤ o ∧ o ≤ largestCount) →
      (∃ g : Float, f.statistic = .ok g ∧ g.isFinite = true) ∧
        ∃ s : Float, f.score = .ok s ∧ s.isFinite = true) ∧
    ∀ t : Table, (∀ row ∈ t, ∀ count ∈ row, 0 ≤ count ∧ count ≤ largestCount) →
      ∀ (i j : Nat) (row : List Int) (count : Int) (r c : Float), t[i]? = some row →
        row[j]? = some count → 0 < count → t.rowSums[i]? = some r → t.colSums[j]? = some c →
          (Margins.expectedOf (Margins.ofTable t).total r c).isFinite = true ∧
            0.0 < Margins.expectedOf (Margins.ofTable t).total r c := by
  let := binary64 ln
  refine ⟨fun expected observed hvalidate hcounts => ?_, fun t m hvalidate hcounts => ?_,
    fun f hcounts => ?_, fun t hcounts i j row count r c hrow hcount hpos =>
      Table.expectedOf_pos ln hcounts hrow hcount hpos⟩
  · have hdata := Fit.validate_eq_ok_iff.1 hvalidate
    have hobserved : ∀ o ∈ observed, IsCount o := fun o ho =>
      ⟨hdata.observed_nonneg o ho, hcounts o ho⟩
    have hne : expected ≠ [] := by
      rintro rfl
      exact absurd hdata.two_le_length (by decide)
    have hsum := Fit.between_unitSum ln hdata.expected_pos hne
    exact ⟨⟨_, hdata.statistic_eq, Fit.isFinite_statisticOf hln hdata.expected_pos hobserved⟩,
      ⟨hsum.pos, hsum.isFinite⟩,
      fun o e hcell => (Fit.within_scaledTerm hln hdata.expected_pos hobserved hcell).isFinite⟩
  · have haccepted : t.Accepted Float := ⟨m, hvalidate⟩
    have hcountable : t.Countable := fun row hrow count hcount =>
      ⟨haccepted.shaped.nonneg count (List.mem_flatten.2 ⟨row, hrow, hcount⟩),
        hcounts row hrow count hcount⟩
    exact ⟨_, haccepted.statistic_eq, Table.isFinite_statisticOf hln hcountable⟩
  · have hnonneg := Fourfold.nonneg_of_isCount hcounts
    exact ⟨⟨_, Fourfold.statistic_eq_ok hnonneg,
        Table.isFinite_statisticOf hln (Fourfold.countable_toTable hcounts)⟩,
      ⟨_, Fourfold.score_eq_ok hnonneg, Fourfold.isFinite_root hln hcounts⟩⟩

/-- The natural logarithm of zero, one half, one and two, with that of one for all other numbers. -/
def sampleLn (x : Float) : Float :=
  if x == 0.0 then -1.0 / 0.0
  else if x == 0.5 then -0.6931471805599453
  else if x == 2.0 then 0.6931471805599453
  else 0.0

lemma lnBounded_sampleLn : LnBounded sampleLn := by
  intro x hx hpos
  rw [sampleLn]
  split_ifs with hzero
  · rw [beq_zero_iff_value hx] at hzero
    exact absurd hzero ((pos_iff_value hx).1 hpos).ne'
  · decide +kernel
  · decide +kernel
  · decide +kernel

/-- No observations, whose number has an infinite logarithm, and a table with empty cells. -/
theorem statistics_isFinite_sample : letI := binary64 sampleLn
    sampleLn 0.0 = -1.0 / 0.0 ∧
      (∃ g : Float, Fit.statistic [0.5, 0.5] [0, 0] = .ok g ∧ g.isFinite = true) ∧
      (∃ g : Float, Table.statistic [[1, 0], [0, 1]] = .ok g ∧ g.isFinite = true) ∧
      ∃ s : Float, Fourfold.score ⟨1, 0, 0, 1⟩ = .ok s ∧ s.isFinite = true := by
  let := binary64 sampleLn
  obtain ⟨hfit, htable, hfourfold, -⟩ := statistics_isFinite lnBounded_sampleLn
  have hdata : Fit.Comparable [(0.5 : Float), 0.5] [0, 0] :=
    ⟨by decide, rfl, by decide +kernel, by decide⟩
  have hshaped : Table.Shaped [[1, 0], [0, 1]] := by decide
  refine ⟨by decide +kernel, ?_, ?_, ?_⟩
  · exact (hfit _ _ (Fit.validate_eq_ok_iff.2 hdata) (by decide)).1
  · exact htable _ _ (Table.validate_eq_ok_iff.2
      ⟨⟨hshaped, by decide +kernel, by decide +kernel⟩, rfl⟩) (by decide)
  · exact (hfourfold ⟨1, 0, 0, 1⟩ (by decide)).2

end LikelihoodRatio
