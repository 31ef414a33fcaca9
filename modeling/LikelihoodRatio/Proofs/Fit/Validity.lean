/-
# Data that the test of fit accepts

The test asks for expected values that are finite and positive, and for as many counts, none of them
negative, in at least two categories (`Comparable`).  Which values are finite and positive is a
question to the arithmetic.
-/
import LikelihoodRatio.Fit.Basic
import LikelihoodRatio.Proofs.Checks

namespace LikelihoodRatio.Fit

variable {α : Type} [Arithmetic α]

/-- Counts with an expected value for each of them. -/
structure Comparable (expected : List α) (observed : List Int) : Prop where
  two_le_length : 2 ≤ expected.length
  length_eq : expected.length = observed.length
  expected_pos : ∀ e ∈ expected, Arithmetic.isFinite e = true ∧ (0.0 : α) < e
  observed_nonneg : ∀ o ∈ observed, 0 ≤ o

variable {expected : List α} {observed : List Int}

lemma validate_eq_ok_iff : validate expected observed = .ok () ↔ Comparable expected observed := by
  rw [validate, check_bind_eq_ok_iff, check_bind_eq_ok_iff, check_bind_eq_ok_iff,
    Check.categories_eq_ok_iff, Check.sameLength_eq_ok_iff, Check.expected_eq_ok_iff,
    Check.counts_eq_ok_iff]
  constructor
  · rintro ⟨htwo, hlength, hexpected, hcounts⟩
    exact ⟨htwo, hlength, hexpected, hcounts⟩
  · rintro ⟨htwo, hlength, hexpected, hcounts⟩
    exact ⟨htwo, hlength, hexpected, hcounts⟩

lemma Comparable.statistic_eq (h : Comparable expected observed) :
    statistic expected observed = .ok (statisticOf expected observed) := by
  rw [statistic, validate_eq_ok_iff.2 h]
  rfl

end LikelihoodRatio.Fit
