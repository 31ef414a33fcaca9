/-
# The ways to test a fit

The counts of an expected distribution can be tested on their own, by their outcome and under
settings, each time under either hypothesis.  All of these compare the p-value with the level, or
report what is wrong with the data (`test_evaluate_goodnessOfFit_agree`).  The hypotheses differ
in the degrees of freedom alone, of which two categories leave one and none (`evaluate_cases`).
-/
import LikelihoodRatio.Proofs.Decision
import LikelihoodRatio.Proofs.Fit.Validity
import LikelihoodRatio.Settings.Basic

namespace LikelihoodRatio

namespace Hypothesis

variable {α : Type} {h : Hypothesis} {k df : Nat}

/-- A hypothesis leaves the degrees of freedom that it does not take away, and at least one. -/
lemma degreesOfFreedom_eq_ok_iff :
    (h.degreesOfFreedom k : Except (Error α) Nat) = .ok df ↔ df + h.constraints = k ∧ 0 < df := by
  rw [degreesOfFreedom, check_bind_eq_ok_iff, Check.categories_eq_ok_iff, subtract_eq_ok_iff]
  omega

lemma degreesOfFreedom_simple (hk : 2 ≤ k) :
    (simple.degreesOfFreedom k : Except (Error α) Nat) = .ok (k - 1) := by
  rw [degreesOfFreedom_eq_ok_iff]
  simp only [constraints]
  omega

lemma degreesOfFreedom_intrinsic (hk : 3 ≤ k) :
    (intrinsic.degreesOfFreedom k : Except (Error α) Nat) = .ok (k - 2) := by
  rw [degreesOfFreedom_eq_ok_iff]
  simp only [constraints]
  omega

end Hypothesis

namespace Fit

variable {expected : List Float} {observed : List Int}

lemma comparable_of_statistic_eq_ok {g : Float} (hg : statistic expected observed = .ok g) :
    Comparable expected observed :=
  validate_eq_ok_iff.1 (check_bind_eq_ok_iff.1 hg).1

/-- A statistic of accepted data is twice a sum. -/
lemma exists_statistic_eq_double {g : Float} (hg : statistic expected observed = .ok g) :
    ∃ s, g = 2.0 * s := by
  rw [(comparable_of_statistic_eq_ok hg).statistic_eq, Except.ok.injEq] at hg
  exact ⟨_, hg.symm⟩

/-- The tail is defined at the statistic of the data, if there are degrees of freedom. -/
lemma defined_of_statistic_eq_ok {g : Float} {h : Hypothesis} {df : Nat}
    (hg : statistic expected observed = .ok g)
    (hdf : (h.degreesOfFreedom observed.length : Except (Error Float) Nat) = .ok df) :
    ChiSquared.Defined g df := by
  obtain ⟨s, rfl⟩ := exists_statistic_eq_double hg
  have hpos : 0 < df := (Hypothesis.degreesOfFreedom_eq_ok_iff.1 hdf).2
  exact ChiSquared.defined_double s hpos.ne'

/-- The p-value and the outcome fail together, for want of a statistic or of degrees of freedom. -/
lemma evaluate_cases (expected : List Float) (observed : List Int) (h : Hypothesis) :
    (∃ e, pValue expected observed h = .error e ∧ evaluate expected observed h = .error e) ∨
      ∃ g df p, statistic expected observed = .ok g ∧
        (h.degreesOfFreedom observed.length : Except (Error Float) Nat) = .ok df ∧
        pValue expected observed h = .ok p ∧ evaluate expected observed h = .ok ⟨g, df, p⟩ := by
  rw [pValue, evaluate]
  cases hg : (statistic expected observed : Except (Error Float) Float) with
  | error e => exact .inl ⟨e, rfl, rfl⟩
  | ok g =>
    cases hdf : (h.degreesOfFreedom observed.length : Except (Error Float) Nat) with
    | error e => exact .inl ⟨e, rfl, rfl⟩
    | ok df =>
      obtain ⟨p, hp, ho⟩ := (defined_of_statistic_eq_ok hg hdf).exists_ofStatistic
      exact .inr ⟨g, df, p, rfl, rfl, hp, ho⟩

/-- Data without a statistic have no outcome under any hypothesis. -/
lemma evaluate_eq_error {e : Error Float} (he : statistic expected observed = .error e)
    (h : Hypothesis) : evaluate expected observed h = .error e :=
  bind_eq_error he _

lemma evaluate_eq_ok {g : Float} {h : Hypothesis} {df : Nat}
    (hg : statistic expected observed = .ok g)
    (hdf : (h.degreesOfFreedom observed.length : Except (Error Float) Nat) = .ok df) :
    ∃ p, evaluate expected observed h = .ok ⟨g, df, p⟩ := by
  obtain ⟨p, -, ho⟩ := (defined_of_statistic_eq_ok hg hdf).exists_ofStatistic
  refine ⟨p, ?_⟩
  rw [evaluate, bind_ok hg, bind_ok hdf, ho]

/-- The hypotheses fail together on data that have no statistic, and part on two categories. -/
lemma evaluate_simple_cases (expected : List Float) (observed : List Int) :
    (∃ e, evaluate expected observed .simple = .error e ∧
      evaluate expected observed .intrinsic = .error e) ∨
    ∃ g p, evaluate expected observed .simple = .ok ⟨g, observed.length - 1, p⟩ ∧
      (observed.length = 2 ∧
          evaluate expected observed .intrinsic = .error (.tooFewCategories 3 2) ∨
        observed.length ≠ 2 ∧
          ∃ q, evaluate expected observed .intrinsic = .ok ⟨g, observed.length - 2, q⟩) := by
  cases hg : (statistic expected observed : Except (Error Float) Float) with
  | error e => exact .inl ⟨e, evaluate_eq_error hg _, evaluate_eq_error hg _⟩
  | ok g =>
    have hlength : 2 ≤ observed.length := by
      have hdata := comparable_of_statistic_eq_ok hg
      exact hdata.length_eq ▸ hdata.two_le_length
    obtain ⟨p, hp⟩ := evaluate_eq_ok hg (Hypothesis.degreesOfFreedom_simple hlength)
    refine .inr ⟨g, p, hp, ?_⟩
    by_cases htwo : observed.length = 2
    · refine .inl ⟨htwo, ?_⟩
      rw [evaluate, hg, htwo]
      rfl
    · have hthree : 3 ≤ observed.length := by omega
      exact .inr ⟨htwo, evaluate_eq_ok hg (Hypothesis.degreesOfFreedom_intrinsic hthree)⟩

section Level

variable {alpha : Float} (hlevel : 0.0 < alpha ∧ alpha < 1.0)

include hlevel

lemma result_test (h : Hypothesis) :
    (test expected observed h alpha).result =
      (pValue expected observed h).map (below alpha) := by
  rw [test, pValue, level_bind hlevel, Logged.result_bind]
  cases (statistic expected observed : Except (Error Float) Float) with
  | error e => rfl
  | ok g => exact result_bind_decideAt hlevel g _

lemma evaluate_bind_rejectsAt (h : Hypothesis) :
    evaluate expected observed h >>= (·.rejectsAt alpha) =
      (pValue expected observed h).map (below alpha) := by
  rcases evaluate_cases expected observed h with ⟨e, hp, he⟩ | ⟨g, df, p, -, -, hp, ho⟩
  · rw [hp, he]
    rfl
  · rw [hp, ho]
    exact rejects_eq hlevel p

/-- Settings return the outcome together with the decision that is made from it. -/
lemma result_goodnessOfFit {s : Settings} (hs : s.alpha = alpha) :
    (s.goodnessOfFit expected observed).result =
      (evaluate expected observed s.hypothesis).map fun o => (o, below alpha o.pValue) := by
  rw [Settings.goodnessOfFit, Settings.validate, hs, level_bind hlevel]
  simp only [Logged.result_bind, Logged.result_lift, Logged.result_enter, Logged.result_pure,
    pure_bind]
  cases evaluate expected observed s.hypothesis with
  | error e => rfl
  | ok o =>
    have hreject : o.rejectsAt alpha = .ok (below alpha o.pValue) := rejects_eq hlevel o.pValue
    rw [bind_ok rfl, bind_ok hreject]
    rfl

end Level

/-- **The ways to test a fit agree.**  The p-value and the outcome under a hypothesis fail with the
same error, or the outcome holds the p-value, the statistic and the degrees of freedom.  At a level
between zero and one all ways to reject compare the p-value with the level, and settings return the
outcome besides; at any other level all fail, whatever the data are.  Where the distribution given
in advance has an outcome, the estimated one has an outcome with the same statistic and one degree
of freedom less, except for two categories, which are too few; and it has none where the other has
none. -/
theorem test_evaluate_goodnessOfFit_agree (expected : List Float) (observed : List Int)
    (alpha : Float) :
    (∀ h : Hypothesis,
      (∃ e, pValue expected observed h = .error e ∧ evaluate expected observed h = .error e) ∨
        ∃ g df p, statistic expected observed = .ok g ∧
          (h.degreesOfFreedom observed.length : Except (Error Float) Nat) = .ok df ∧
          pValue expected observed h = .ok p ∧ evaluate expected observed h = .ok ⟨g, df, p⟩) ∧
    (0.0 < alpha ∧ alpha < 1.0 → ∀ h : Hypothesis, ∃ decision : Except (Error Float) Bool,
      decision = (pValue expected observed h).map (fun p => decide (p < alpha)) ∧
      (test expected observed h alpha).result = decision ∧
      evaluate expected observed h >>= (·.rejectsAt alpha) = decision ∧
      ∀ s : Settings, s.alpha = alpha → s.hypothesis = h →
        (s.goodnessOfFit expected observed).result.map Prod.snd = decision ∧
        (s.goodnessOfFit expected observed).result.map Prod.fst = evaluate expected observed h) ∧
    (¬(0.0 < alpha ∧ alpha < 1.0) →
      (∀ h : Hypothesis,
        (test expected observed h alpha).result = .error (.significanceOutOfRange alpha)) ∧
      ∀ s : Settings, s.alpha = alpha →
        (s.goodnessOfFit expected observed).result = .error (.significanceOutOfRange alpha)) ∧
    (∀ e, evaluate expected observed .simple = .error e →
      evaluate expected observed .intrinsic = .error e) ∧
    ∀ o, evaluate expected observed .simple = .ok o →
      o.degreesOfFreedom = observed.length - 1 ∧
      ((∃ e, evaluate expected observed .intrinsic = .error e) ↔ observed.length = 2) ∧
      (observed.length = 2 →
        evaluate expected observed .intrinsic = .error (.tooFewCategories 3 2)) ∧
      (observed.length ≠ 2 → ∃ p,
        evaluate expected observed .intrinsic = .ok ⟨o.statistic, observed.length - 2, p⟩) := by
  refine ⟨evaluate_cases expected observed, fun hlevel h => ?_, fun hlevel => ⟨fun h => ?_, ?_⟩,
    fun e he => ?_, fun o ho => ?_⟩
  · refine ⟨_, rfl, result_test hlevel h, evaluate_bind_rejectsAt hlevel h, fun s hs hh => ?_⟩
    rw [result_goodnessOfFit hlevel hs, hh]
    rcases evaluate_cases expected observed h with ⟨e, hp, he⟩ | ⟨g, df, p, -, -, hp, ho⟩
    · rw [hp, he]
      exact ⟨rfl, rfl⟩
    · rw [hp, ho]
      exact ⟨rfl, rfl⟩
  · rw [test, level_bind_of_not hlevel]
  · rintro s rfl
    rw [Settings.goodnessOfFit, Settings.validate, level_bind_of_not hlevel]
  · rcases evaluate_simple_cases expected observed with ⟨e', hsimple, hintrinsic⟩ | h
    · rw [hsimple, Except.error.injEq] at he
      rw [hintrinsic, he]
    · obtain ⟨g, p, hsimple, -⟩ := h
      rw [hsimple] at he
      cases he
  · rcases evaluate_simple_cases expected observed with ⟨e', hsimple, -⟩ | h
    · rw [hsimple] at ho
      cases ho
    · obtain ⟨g, p, hsimple, hintrinsic⟩ := h
      rw [hsimple, Except.ok.injEq] at ho
      subst ho
      refine ⟨rfl, ?_⟩
      rcases hintrinsic with ⟨htwo, herror⟩ | ⟨htwo, q, hok⟩
      · exact ⟨⟨fun _ => htwo, fun _ => ⟨_, herror⟩⟩, fun _ => herror, fun hne => absurd htwo hne⟩
      · refine ⟨⟨fun ⟨e, he⟩ => ?_, fun h => absurd h htwo⟩, fun h => absurd h htwo,
          fun _ => ⟨q, hok⟩⟩
        rw [hok] at he
        cases he

/-- Two categories under both hypotheses, and a level that cannot be used. -/
theorem test_evaluate_goodnessOfFit_agree_pair :
    (∃ g p, evaluate [3.0, 1.0] [423, 133] .simple = .ok ⟨g, 1, p⟩ ∧
      evaluate [3.0, 1.0] [423, 133] .intrinsic = .error (.tooFewCategories 3 2) ∧
      (test [3.0, 1.0] [423, 133] .simple 0.05).result = .ok (decide (p < 0.05)) ∧
      (Settings.standard.goodnessOfFit [3.0, 1.0] [423, 133]).result.map Prod.snd =
        .ok (decide (p < 0.05))) ∧
    (test [] [-1] .intrinsic 1.0).result = .error (.significanceOutOfRange 1.0) := by
  have hlevel : (0.0 : Float) < 0.05 ∧ (0.05 : Float) < 1.0 := by decide +kernel
  have hnot : ¬((0.0 : Float) < 1.0 ∧ (1.0 : Float) < 1.0) := by decide +kernel
  have hdata : Comparable [(3.0 : Float), 1.0] [423, 133] :=
    ⟨by decide, rfl, by decide +kernel, by decide⟩
  refine ⟨?_, ((test_evaluate_goodnessOfFit_agree [] [-1] 1.0).2.2.1 hnot).1 .intrinsic⟩
  obtain ⟨hcases, hagree, -, -, hintrinsic⟩ :=
    test_evaluate_goodnessOfFit_agree [3.0, 1.0] [423, 133] 0.05
  obtain ⟨decision, hdecision, htest, -, hsettings⟩ := hagree hlevel .simple
  rcases hcases .simple with ⟨e, -, he⟩ | ⟨g, df, p, -, hdf, hp, ho⟩
  · obtain ⟨q, hq⟩ :=
      evaluate_eq_ok hdata.statistic_eq (Hypothesis.degreesOfFreedom_simple (Nat.le_refl 2))
    rw [hq] at he
    cases he
  · have hone : df = 1 := by
      have hleft := (Hypothesis.degreesOfFreedom_eq_ok_iff.1 hdf).1
      simpa [Hypothesis.constraints] using hleft
    subst hone
    rw [hp] at hdecision
    refine ⟨g, p, ho, (hintrinsic _ ho).2.2.1 rfl, htest.trans hdecision, ?_⟩
    exact (hsettings .standard rfl rfl).1.trans hdecision

end Fit

end LikelihoodRatio
