/-
# Data that the test of fit refuses

The data are looked at in a fixed order: the expected values are counted, the numbers of expected
values and of counts compared, and then the expected values and the counts looked at one by one.
What is reported is the first fault in this order (`FirstFault`), and data without fault have a
statistic.  Whether they leave a degree of freedom is asked only then (`HypothesisFault`), and
whether a level can be used is asked before everything else (`TestFault`).
-/
import LikelihoodRatio.Proofs.Failures
import LikelihoodRatio.Proofs.Fit.Decision

namespace LikelihoodRatio

/-- A hypothesis is refused for too few categories only. -/
lemma Hypothesis.degreesOfFreedom_eq_error_iff {α : Type} {h : Hypothesis} {k : Nat} {e : Error α} :
    (h.degreesOfFreedom k : Except (Error α) Nat) = .error e ↔
      k < h.constraints + 1 ∧ .tooFewCategories (h.constraints + 1) k = e := by
  have hleft (hk : h.constraints + 1 ≤ k) :
      (subtract k h.constraints : Except (Error α) Nat) = .ok (k - h.constraints) :=
    subtract_eq_ok_iff.2 (Nat.sub_add_cancel (Nat.le_of_succ_le hk))
  rw [degreesOfFreedom, check_bind_eq_error_iff, Check.categories_eq_error_iff,
    Check.categories_eq_ok_iff]
  refine or_iff_left ?_
  rintro ⟨hk, he⟩
  rw [hleft hk] at he
  cases he

namespace Fit

section FirstFault

variable {α : Type} [Arithmetic α]

/-- The first thing that is wrong with expected values and counts. -/
inductive FirstFault (expected : List α) (observed : List Int) : Error α → Prop where
  | categories (h : expected.length < 2) :
      FirstFault expected observed (.tooFewCategories 2 expected.length)
  | length (htwo : 2 ≤ expected.length) (h : expected.length ≠ observed.length) :
      FirstFault expected observed (.lengthMismatch expected.length observed.length)
  | expected {index : Nat} {value : α} (htwo : 2 ≤ expected.length)
      (hlength : expected.length = observed.length)
      (h : FirstAt (fun e => ¬(Arithmetic.isFinite e = true ∧ (0.0 : α) < e)) expected
        index value) :
      FirstFault expected observed (.nonPositiveExpected index value)
  | negative {index : Nat} {value : Int} (htwo : 2 ≤ expected.length)
      (hlength : expected.length = observed.length)
      (hexpected : ∀ e ∈ expected, Arithmetic.isFinite e = true ∧ (0.0 : α) < e)
      (h : FirstAt (fun count => count < 0) observed index value) :
      FirstFault expected observed (.negativeCount index value)

variable {expected : List α} {observed : List Int} {e : Error α}

lemma validate_eq_error_iff : validate expected observed = .error e ↔
    FirstFault expected observed e := by
  rw [validate, check_bind_eq_error_iff, check_bind_eq_error_iff, check_bind_eq_error_iff,
    Check.categories_eq_error_iff, Check.categories_eq_ok_iff, Check.sameLength_eq_error_iff,
    Check.sameLength_eq_ok_iff, Check.expected_eq_error_iff, Check.expected_eq_ok_iff,
    Check.counts_eq_error_iff]
  constructor
  · rintro (⟨h, rfl⟩ | ⟨htwo, ⟨h, rfl⟩ | ⟨hlength, ⟨index, value, h, rfl⟩ |
      ⟨hexpected, index, value, h, rfl⟩⟩⟩)
    · exact .categories h
    · exact .length htwo h
    · exact .expected htwo hlength h
    · exact .negative htwo hlength hexpected h
  · intro h
    cases h with
    | categories h => exact .inl ⟨h, rfl⟩
    | length htwo h => exact .inr ⟨htwo, .inl ⟨h, rfl⟩⟩
    | expected htwo hlength h => exact .inr ⟨htwo, .inr ⟨hlength, .inl ⟨_, _, h, rfl⟩⟩⟩
    | negative htwo hlength hexpected h =>
      exact .inr ⟨htwo, .inr ⟨hlength, .inr ⟨hexpected, _, _, h, rfl⟩⟩⟩

/-- Data have a statistic if they can be compared. -/
lemma statistic_eq_ok_iff :
    (∃ g : α, statistic expected observed = .ok g) ↔ Comparable expected observed := by
  rw [← validate_eq_ok_iff, statistic, bind_pure_eq_ok_iff]
  constructor
  · rintro ⟨_, h⟩
    exact h
  · intro h
    exact ⟨(), h⟩

lemma statistic_eq_error_iff :
    statistic expected observed = .error e ↔ FirstFault expected observed e := by
  rw [← validate_eq_error_iff, statistic, bind_pure_eq_error_iff]

end FirstFault

/-! ### Hypotheses and levels -/

/-- What is wrong with data under a hypothesis.  Two categories have no degree of freedom left if a
parameter was estimated, which is looked at last. -/
inductive HypothesisFault (expected : List Float) (observed : List Int) :
    Hypothesis → Error Float → Prop where
  | data {h : Hypothesis} {e : Error Float} (he : FirstFault expected observed e) :
      HypothesisFault expected observed h e
  | freedom (hdata : Comparable expected observed) (htwo : expected.length = 2) :
      HypothesisFault expected observed .intrinsic (.tooFewCategories 3 2)

/-- What is wrong with a test at a level.  A level that cannot be used is reported first. -/
inductive TestFault (expected : List Float) (observed : List Int) (h : Hypothesis)
    (alpha : Float) : Error Float → Prop where
  | level (hlevel : ¬(0.0 < alpha ∧ alpha < 1.0)) :
      TestFault expected observed h alpha (.significanceOutOfRange alpha)
  | hypothesis {e : Error Float} (hlevel : 0.0 < alpha ∧ alpha < 1.0)
      (he : HypothesisFault expected observed h e) : TestFault expected observed h alpha e

variable {expected : List Float} {observed : List Int} {h : Hypothesis} {e : Error Float}

/-- Where the data can be compared, two categories and an estimated parameter are all that can be
wrong. -/
lemma Comparable.hypothesisFault_iff (hdata : Comparable expected observed) :
    HypothesisFault expected observed h e ↔
      (h.degreesOfFreedom observed.length : Except (Error Float) Nat) = .error e := by
  have hok := hdata.statistic_eq
  rw [Hypothesis.degreesOfFreedom_eq_error_iff, ← hdata.length_eq]
  constructor
  · intro hfault
    cases hfault with
    | data he =>
      rw [statistic_eq_error_iff.2 he] at hok
      cases hok
    | freedom _ htwo => exact ⟨by simp [htwo, Hypothesis.constraints], by rw [htwo]; rfl⟩
  · rintro ⟨hfew, rfl⟩
    have htwo := hdata.two_le_length
    cases h with
    | simple => exact absurd hfew (Nat.not_lt.2 htwo)
    | intrinsic =>
      have hlength : expected.length = 2 := Nat.le_antisymm (Nat.le_of_lt_succ hfew) htwo
      rw [hlength]
      exact .freedom hdata hlength

/-- What is computed from the statistic and the degrees of freedom, wherever the tail is defined,
fails for want of one of them. -/
lemma hypothesisFault_iff {β : Type} {f : Float → Nat → Except (Error Float) β}
    (hf : ∀ g df, ChiSquared.Defined g df → ∃ b, f g df = .ok b) :
    (statistic expected observed >>= fun g =>
      h.degreesOfFreedom observed.length >>= fun df => f g df) = .error e ↔
        HypothesisFault expected observed h e := by
  cases hg : (statistic expected observed : Except (Error Float) Float) with
  | error e' =>
    have hfault := statistic_eq_error_iff.1 hg
    change Except.error e' = .error e ↔ _
    rw [Except.error.injEq]
    constructor
    · rintro rfl
      exact .data hfault
    · intro hfault'
      cases hfault' with
      | data he => exact Except.error.inj (hg.symm.trans (statistic_eq_error_iff.2 he))
      | freedom hdata _ =>
        rw [hdata.statistic_eq] at hg
        cases hg
  | ok g =>
    have hdata := comparable_of_statistic_eq_ok hg
    rw [hdata.hypothesisFault_iff, bind_ok rfl]
    cases hdf : (h.degreesOfFreedom observed.length : Except (Error Float) Nat) with
    | error e' => rw [bind_eq_error rfl, Except.error.injEq, Except.error.injEq]
    | ok df =>
      obtain ⟨b, hb⟩ := hf g df (defined_of_statistic_eq_ok hg hdf)
      rw [bind_ok rfl, hb]
      exact iff_of_false nofun nofun

lemma pValue_eq_error_iff :
    pValue expected observed h = .error e ↔ HypothesisFault expected observed h e :=
  hypothesisFault_iff fun _ _ hdefined => hdefined.exists_upperTail

lemma evaluate_eq_error_iff :
    evaluate expected observed h = .error e ↔ HypothesisFault expected observed h e := by
  refine hypothesisFault_iff fun g df hdefined => ?_
  obtain ⟨_, _, ho⟩ := hdefined.exists_ofStatistic
  exact ⟨_, ho⟩

lemma test_eq_error_iff {alpha : Float} :
    (test expected observed h alpha).result = .error e ↔
      TestFault expected observed h alpha e := by
  have hdecide (hlevel : 0.0 < alpha ∧ alpha < 1.0) :
      (statistic expected observed >>= fun g =>
        h.degreesOfFreedom observed.length >>= fun df => (decideAt g df alpha).result) = .error e ↔
          HypothesisFault expected observed h e :=
    hypothesisFault_iff fun _ _ hdefined => hdefined.exists_decideAt hlevel
  simp only [test, Logged.result_bind, Logged.result_lift]
  rw [check_bind_eq_error_iff, Check.level_eq_error_iff, Check.level_eq_ok_iff,
    and_congr_right hdecide]
  constructor
  · rintro (⟨hlevel, rfl⟩ | ⟨hlevel, he⟩)
    · exact .level hlevel
    · exact .hypothesis hlevel he
  · intro hfault
    cases hfault with
    | level hlevel => exact .inl ⟨hlevel, rfl⟩
    | hypothesis hlevel he => exact .inr ⟨hlevel, he⟩

/-- **Data are refused for their first fault.**  Expected values and counts have a statistic if
there are at least two expected values, as many counts, all expected values are finite and positive,
and no count is negative.  Otherwise the first fault in this order is reported.  The outcome and the
p-value report the same fault; only if there is none do they report that two categories are too few
for an estimated parameter.  A test reports a level that it cannot use before any of this. -/
theorem refused_for_first_fault (expected : List Float) (observed : List Int) :
    ((∃ g : Float, statistic expected observed = .ok g) ↔ Comparable expected observed) ∧
      (∀ e : Error Float, statistic expected observed = .error e ↔
        FirstFault expected observed e) ∧
      (∀ h e, evaluate expected observed h = .error e ↔ HypothesisFault expected observed h e) ∧
      (∀ h e, pValue expected observed h = .error e ↔ HypothesisFault expected observed h e) ∧
      ∀ h alpha e, (test expected observed h alpha).result = .error e ↔
        TestFault expected observed h alpha e :=
  ⟨statistic_eq_ok_iff, fun _ => statistic_eq_error_iff, fun _ _ => evaluate_eq_error_iff,
    fun _ _ => pValue_eq_error_iff, fun _ _ _ => test_eq_error_iff⟩

/-- Of an expected value that is no number, a negative count and a missing degree of freedom the
first is reported, and the last only where it is the only one. -/
example :
    (test [2.0, 0.0 / 0.0] [7, -1] .intrinsic 0.05).result =
        .error (.nonPositiveExpected 1 (0.0 / 0.0)) ∧
      (test [3.0, 1.0] [423, 133] .intrinsic 0.05).result = .error (.tooFewCategories 3 2) := by
  decide +kernel

end Fit

end LikelihoodRatio
