/-
# The ways to test a table

A table can be tested on its own, by its outcome, under settings, and among other tables.  All of
these compare the p-value of the table with the level, or report what is wrong with the table
(`decisions_agree`).  A table that has a statistic has a p-value: it has degrees of freedom, and its
statistic is zero or twice a sum (`defined_of_statistic_eq_ok`).
-/
import LikelihoodRatio.Proofs.Decision
import LikelihoodRatio.Proofs.Screening.Loop
import LikelihoodRatio.Proofs.Table.Validity
import LikelihoodRatio.Settings.Basic

namespace LikelihoodRatio

namespace Table

variable {t : Table}

/-- A statistic is zero or twice a sum. -/
lemma statisticOf_eq_double (t : Table) (m : Margins Float) :
    t.statisticOf m = 0.0 ∨ ∃ s, t.statisticOf m = 2.0 * s := by
  rw [statisticOf]
  by_cases htotal : (m.total == 0.0) = true
  · exact .inl (if_pos htotal)
  · exact .inr ⟨_, if_neg htotal⟩

/-- A table with a statistic has degrees of freedom, at which the tail is defined. -/
lemma defined_of_statistic_eq_ok {g : Float} (h : t.statistic = .ok g) :
    (t.degreesOfFreedom : Except (Error Float) Nat) = .ok ((t.length - 1) * (t.width - 1)) ∧
      ChiSquared.Defined g ((t.length - 1) * (t.width - 1)) := by
  have haccepted : t.Accepted Float := accepted_of_statistic_eq_ok h
  have hdf := haccepted.shaped.freedom_pos.ne'
  rw [haccepted.statistic_eq, Except.ok.injEq] at h
  refine ⟨haccepted.shaped.degreesOfFreedom_eq_ok, ?_⟩
  rcases t.statisticOf_eq_double (.ofTable t) with hzero | ⟨s, hs⟩
  · rw [← h, hzero]
    exact ChiSquared.defined_zero hdf
  · rw [← h, hs]
    exact ChiSquared.defined_double s hdf

/-- Statistic, p-value and outcome fail together. -/
lemma evaluate_cases (t : Table) :
    (∃ e : Error Float, t.statistic = .error e ∧ t.pValue = .error e ∧ t.evaluate = .error e) ∨
      ∃ g p : Float, t.statistic = .ok g ∧ t.pValue = .ok p ∧
        t.evaluate = .ok ⟨g, (t.length - 1) * (t.width - 1), p⟩ := by
  rw [pValue, evaluate]
  cases h : (t.statistic : Except (Error Float) Float) with
  | error e => exact .inl ⟨e, rfl, rfl, rfl⟩
  | ok g =>
    obtain ⟨hdf, hdefined⟩ := defined_of_statistic_eq_ok h
    obtain ⟨p, hp, ho⟩ := hdefined.exists_ofStatistic
    rw [bind_ok rfl, bind_ok rfl, bind_ok hdf, bind_ok hdf]
    exact .inr ⟨g, p, rfl, hp, ho⟩

section Level

variable {alpha : Float} (h : 0.0 < alpha ∧ alpha < 1.0)

include h

lemma result_test : (t.test alpha).result = t.pValue.map (below alpha) := by
  rw [test, pValue, level_bind h, Logged.result_bind]
  cases (t.statistic : Except (Error Float) Float) with
  | error e => rfl
  | ok g => exact result_bind_decideAt h g _

lemma evaluate_bind_rejectsAt :
    t.evaluate >>= (·.rejectsAt alpha) = t.pValue.map (below alpha) := by
  rw [evaluate, pValue]
  cases (t.statistic : Except (Error Float) Float) with
  | error e => rfl
  | ok g =>
    rw [bind_ok rfl, bind_ok rfl]
    cases (t.degreesOfFreedom : Except (Error Float) Nat) with
    | error e => rfl
    | ok df => exact ofStatistic_bind_rejectsAt h g df

/-- Settings return the outcome together with the decision that is made from it. -/
lemma independence_eq {s : Settings} (hs : s.alpha = alpha) :
    s.independence t = t.evaluate.map fun o => (o, below alpha o.pValue) := by
  rw [Settings.independence, Settings.validate, hs, bind_ok (Check.level_eq_ok_iff.2 h)]
  cases t.evaluate with
  | error e => rfl
  | ok o =>
    have hreject : o.rejectsAt alpha = .ok (below alpha o.pValue) := rejects_eq h o.pValue
    rw [bind_ok rfl, bind_ok hreject]
    rfl

lemma independence_snd {s : Settings} (hs : s.alpha = alpha) :
    (s.independence t).map Prod.snd = t.pValue.map (below alpha) := by
  rw [← evaluate_bind_rejectsAt h, independence_eq h hs]
  cases t.evaluate with
  | error e => rfl
  | ok o => exact (rejects_eq h o.pValue).symm

/-- A table that is screened alone is the first of the significant ones, or there are none. -/
lemma significant_singleton (parallel : Bool) :
    (Screening.significant [t] alpha parallel).result = .ok [0] ∧
        t.pValue.map (below alpha) = .ok true ∨
      (Screening.significant [t] alpha parallel).result = .ok [] ∧
        t.pValue.map (below alpha) ≠ .ok true := by
  rw [Screening.significant_eq h, List.map_singleton]
  cases t.pValue with
  | error e => exact .inr ⟨rfl, by simp [Except.map]⟩
  | ok p =>
    by_cases hp : p < alpha
    · exact .inl ⟨by simp [Screening.rejected, hp], by simp [Except.map, below, hp]⟩
    · exact .inr ⟨by simp [Screening.rejected, hp], by simp [Except.map, below, hp]⟩

end Level

/-- A rejection stands at every higher level. -/
lemma map_below_of_le {alpha beta : Float} (hle : alpha ≤ beta)
    (h : t.pValue.map (below alpha) = .ok true) : t.pValue.map (below beta) = .ok true := by
  cases hp : t.pValue with
  | error e =>
    rw [hp] at h
    cases h
  | ok p =>
    rw [hp, Except.map, Except.ok.injEq] at h
    rw [Except.map, below_of_le hle h]

end Table

open Table in
/-- **The ways to test a table agree.**  The statistic, the p-value and the outcome of a table all
fail with the same error, or the outcome is made of the other two.  At a level between zero and one
all ways to reject compare the p-value with the level; at any other level all fail.  What is
rejected at a level is rejected at every higher one. -/
theorem decisions_agree (t : Table) (alpha : Float) :
    ((∃ e : Error Float, t.statistic = .error e ∧ t.pValue = .error e ∧ t.evaluate = .error e) ∨
      ∃ g p : Float, t.statistic = .ok g ∧ t.pValue = .ok p ∧
        t.evaluate = .ok ⟨g, (t.length - 1) * (t.width - 1), p⟩) ∧
    (0.0 < alpha ∧ alpha < 1.0 → ∃ decision : Except (Error Float) Bool,
      decision = t.pValue.map (fun p => decide (p < alpha)) ∧
      (t.test alpha).result = decision ∧
      t.evaluate >>= (·.rejectsAt alpha) = decision ∧
      (∀ s : Settings, s.alpha = alpha → (s.independence t).map Prod.snd = decision) ∧
      ∀ parallel : Bool,
        (decision = .ok true →
          (Screening.significant [t] alpha parallel).result = .ok [0]) ∧
        (decision ≠ .ok true →
          (Screening.significant [t] alpha parallel).result = .ok [])) ∧
    (¬(0.0 < alpha ∧ alpha < 1.0) →
      (t.test alpha).result = .error (.significanceOutOfRange alpha) ∧
      (∀ s : Settings, s.alpha = alpha →
        s.independence t = .error (.significanceOutOfRange alpha)) ∧
      ∀ (tables : List Table) (parallel : Bool),
        (Screening.significant tables alpha parallel).result =
          .error (.significanceOutOfRange alpha)) ∧
    ∀ beta : Float, 0.0 < alpha → alpha ≤ beta → beta < 1.0 →
      (t.test alpha).result = .ok true → (t.test beta).result = .ok true := by
  refine ⟨t.evaluate_cases, fun h => ⟨_, rfl, result_test h, evaluate_bind_rejectsAt h,
    fun s => independence_snd h, fun parallel => ?_⟩, fun h => ⟨?_, fun s hs => ?_, fun _ _ => ?_⟩,
    fun beta hpos hle hlt hreject => ?_⟩
  · rcases significant_singleton h parallel with ⟨hfound, hreject⟩ | ⟨hfound, hreject⟩
    · exact ⟨fun _ => hfound, fun hnot => absurd hreject hnot⟩
    · exact ⟨fun hreject' => absurd hreject' hreject, fun _ => hfound⟩
  · rw [test, level_bind_of_not h]
  · subst hs
    exact bind_eq_error (Check.level_eq_error h) _
  · rw [Screening.significant_of_not h]
  · rw [result_test ⟨hpos, Binary64.lt_of_le_of_lt hle hlt⟩] at hreject
    rw [result_test ⟨Binary64.lt_of_lt_of_le hpos hle, hlt⟩]
    exact map_below_of_le hle hreject

/-- A table with a p-value, one that is too short, and a level that cannot be used. -/
theorem decisions_agree_fourfold :
    (∃ p : Float, Table.pValue [[7, 3], [2, 8]] = .ok p ∧
      (Table.test [[7, 3], [2, 8]] 0.05).result = .ok (decide (p < 0.05)) ∧
      ((Table.test [[7, 3], [2, 8]] 0.05).result = .ok true →
        (Table.test [[7, 3], [2, 8]] 0.1).result = .ok true)) ∧
    (Screening.significant [[[7, 3]]] 0.05 true).result = .ok [] ∧
    (Table.test [[7, 3], [2, 8]] 1.0).result = .error (.significanceOutOfRange 1.0) := by
  have hlevel : (0.0 : Float) < 0.05 ∧ (0.05 : Float) < 1.0 := by decide +kernel
  have hlevel' : (0.05 : Float) ≤ 0.1 ∧ (0.1 : Float) < 1.0 := by decide +kernel
  have hnot : ¬((0.0 : Float) < 1.0 ∧ (1.0 : Float) < 1.0) := by decide +kernel
  have haccepted : Table.Accepted Float [[7, 3], [2, 8]] :=
    ⟨_, Table.validate_eq_ok_iff.2 ⟨⟨by decide, by decide +kernel, by decide +kernel⟩, rfl⟩⟩
  have hshort : Table.pValue [[7, 3]] = .error (.tooFewCategories 2 1) := rfl
  refine ⟨?_, ?_, ?_⟩
  · obtain ⟨hcases, hagree, -, hmono⟩ := decisions_agree [[7, 3], [2, 8]] 0.05
    obtain ⟨decision, hdecision, htest, -⟩ := hagree hlevel
    rcases hcases with ⟨e, he, -⟩ | ⟨g, p, -, hp, -⟩
    · rw [haccepted.statistic_eq] at he
      cases he
    · refine ⟨p, hp, ?_, hmono 0.1 hlevel.1 hlevel'.1 hlevel'.2⟩
      rw [htest, hdecision, hp]
      rfl
  · obtain ⟨-, hagree, -⟩ := decisions_agree [[7, 3]] 0.05
    obtain ⟨decision, hdecision, -, -, -, hscreened⟩ := hagree hlevel
    refine (hscreened true).2 ?_
    rw [hdecision, hshort]
    simp [Except.map]
  · exact ((decisions_agree [[7, 3], [2, 8]] 1.0).2.2.1 hnot).1

end LikelihoodRatio
