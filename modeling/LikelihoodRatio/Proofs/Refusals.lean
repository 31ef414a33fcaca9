/-
# What the tests refuse

A test that has no answer refuses its data: it names a length, a count, an expected value, a margin
or a level that it cannot use.  No test fails for a reason of its own (`answers_or_refuses`).  Each
step of a test is a check, which refuses, or is defined once the checks before it have passed: a row
is looked at once there are rows, and a number is taken from one that is not smaller.  That holds of
the tail of the distribution in particular, which is asked for with degrees of freedom and with a
statistic that can be halved (`ChiSquared.Defined`).
-/
import LikelihoodRatio.Proofs.Fit.Decision
import LikelihoodRatio.Proofs.Messages
import LikelihoodRatio.Proofs.Table.Decision
import LikelihoodRatio.Tally
import LikelihoodRatio.TwoSample

namespace LikelihoodRatio

/-- A result, or a refusal of the data. -/
def Settled {α β : Type} (r : Except (Error α) β) : Prop := ∀ e, r = .error e → e.isRefusal = true

section Settled

variable {α β γ : Type} {x : Except (Error α) β} {f : β → Except (Error α) γ}

lemma settled_ok (b : β) : Settled (.ok b : Except (Error α) β) := fun _ h => nomatch h

lemma settled_error {e : Error α} (he : e.isRefusal = true) :
    Settled (.error e : Except (Error α) β) := by
  rintro e' ⟨⟩
  exact he

/-- A step is settled if its start is, and so is what follows each result of it. -/
lemma Settled.bind (hx : Settled x) (hf : ∀ b, x = .ok b → Settled (f b)) : Settled (x >>= f) := by
  cases x with
  | error e =>
    rintro e' ⟨⟩
    exact hx e rfl
  | ok b => exact hf b rfl

lemma settled_ite {p : Prop} [Decidable p] {e : Error α} (he : e.isRefusal = true) :
    Settled (if p then .ok () else .error e : Except (Error α) Unit) := by
  split_ifs
  · exact settled_ok _
  · exact settled_error he

end Settled

/-! ### Checks -/

section Steps

variable {α : Type}

/-- Taking a number from one that is not smaller does not fail. -/
lemma settled_subtract {number taken : Nat} (h : taken ≤ number) :
    Settled (subtract number taken : Except (Error α) Nat) := by
  rw [subtract_eq_ok_iff.2 (Nat.sub_add_cancel h)]
  exact settled_ok _

/-- Where there are rows, there is a first one. -/
lemma Table.settled_row_zero {t : Table} (h : 0 < t.length) :
    Settled (t.row 0 : Except (Error α) (List Int)) := by
  obtain ⟨row, hrow, -⟩ := exists_row_zero (α := α) h
  rw [hrow]
  exact settled_ok row

end Steps

namespace Check

variable {α : Type}

lemma settled_sameLength {β γ : Type} (a : List β) (b : List γ) :
    Settled (sameLength a b : Except (Error α) Unit) :=
  settled_ite rfl

lemma settled_categories (found : Nat) {required : Nat} (h : required = 2 ∨ required = 3) :
    Settled (categories found required : Except (Error α) Unit) := by
  rw [categories]
  split_ifs
  · refine settled_error ?_
    rcases h with rfl | rfl <;> rfl
  · exact settled_ok _

lemma settled_positioned (cells : List (Int × Nat)) :
    Settled (positioned cells : Except (Error α) Unit) := by
  rw [positioned]
  cases cells.find? (fun cell => decide (cell.1 < 0)) with
  | none => exact settled_ok _
  | some cell => exact settled_error rfl

lemma settled_counts (observed : List Int) : Settled (counts observed : Except (Error α) Unit) :=
  settled_positioned _

lemma settled_rowLengths (t : Table) (width : Nat) :
    Settled (rowLengths t width : Except (Error α) Unit) := by
  rw [rowLengths]
  cases t.find? (fun row => row.length != width) with
  | none => exact settled_ok _
  | some row => exact settled_error rfl

/-- The first row is looked at once the number of rows has been checked. -/
lemma settled_rectangular (t : Table) : Settled (rectangular t : Except (Error α) Unit) := by
  refine (settled_categories _ (.inl rfl)).bind fun _ hrows => ?_
  have hlength : 2 ≤ t.length := categories_eq_ok_iff.1 hrows
  refine (Table.settled_row_zero (by omega)).bind fun row _ => ?_
  exact (settled_categories _ (.inl rfl)).bind fun _ _ => settled_rowLengths t _

variable [Arithmetic α]

lemma settled_expected (values : List α) : Settled (expected values) := by
  rw [expected]
  cases values.zipIdx.find?
    (fun cell => !(Arithmetic.isFinite cell.1 && decide ((0.0 : α) < cell.1))) with
  | none => exact settled_ok _
  | some cell => exact settled_error rfl

lemma settled_marginals (rowSums colSums : List α) : Settled (marginals rowSums colSums) := by
  rw [marginals]
  cases rowSums.findIdx? (· == 0.0) with
  | some i => exact settled_error rfl
  | none =>
    cases colSums.findIdx? (· == 0.0) with
    | some j => exact settled_error rfl
    | none => exact settled_ok _

lemma settled_level (alpha : α) : Settled (level alpha) := settled_ite rfl

end Check

/-! ### Tests -/

/-- The degrees of freedom are taken away once there are enough categories. -/
lemma Hypothesis.settled_degreesOfFreedom {α : Type} (h : Hypothesis) (k : Nat) :
    Settled (h.degreesOfFreedom k : Except (Error α) Nat) := by
  refine (Check.settled_categories k ?_).bind fun _ hk => ?_
  · cases h with
    | simple => exact .inl rfl
    | intrinsic => exact .inr rfl
  · have henough : h.constraints + 1 ≤ k := Check.categories_eq_ok_iff.1 hk
    exact settled_subtract (by omega)

lemma ChiSquared.Defined.settled {value : Float} {df : Nat} (h : Defined value df) :
    Settled (upperTail value df) := by
  obtain ⟨p, hp⟩ := h.exists_upperTail
  rw [hp]
  exact settled_ok p

lemma ChiSquared.Defined.settled_ofStatistic {value : Float} {df : Nat} (h : Defined value df) :
    Settled (Outcome.ofStatistic value df) :=
  h.settled.bind fun _ _ => settled_ok _

lemma ChiSquared.Defined.settled_decideAt {value : Float} {df : Nat} (h : Defined value df)
    (alpha : Float) : Settled (decideAt value df alpha).result := by
  rw [decideAt, Logged.result_bind]
  refine (Check.settled_level alpha).bind fun _ _ => ?_
  rw [Logged.result_bind]
  exact h.settled.bind fun _ _ => settled_ok _

lemma settled_rejects (p alpha : Float) : Settled (rejects p alpha) :=
  (Check.settled_level alpha).bind fun _ _ => settled_ok _

namespace Fit

variable (expected : List Float) (observed : List Int) (h : Hypothesis) (alpha : Float)

lemma settled_statistic {α : Type} [Arithmetic α] (expected : List α) (observed : List Int) :
    Settled (statistic expected observed) := by
  have hvalidate : Settled (validate expected observed) :=
    (Check.settled_categories _ (.inl rfl)).bind fun _ _ =>
      (Check.settled_sameLength _ _).bind fun _ _ =>
        (Check.settled_expected _).bind fun _ _ => Check.settled_counts _
  exact hvalidate.bind fun _ _ => settled_ok _

lemma settled_evaluate : Settled (evaluate expected observed h) :=
  (settled_statistic expected observed).bind fun _ hg =>
    (h.settled_degreesOfFreedom _).bind fun _ hdf =>
      (defined_of_statistic_eq_ok hg hdf).settled_ofStatistic

lemma settled_pValue : Settled (pValue expected observed h) :=
  (settled_statistic expected observed).bind fun _ hg =>
    (h.settled_degreesOfFreedom _).bind fun _ hdf => (defined_of_statistic_eq_ok hg hdf).settled

lemma settled_test : Settled (test expected observed h alpha).result := by
  simp only [test, Logged.result_bind, Logged.result_lift]
  exact (Check.settled_level alpha).bind fun _ _ =>
    (settled_statistic expected observed).bind fun _ hg =>
      (h.settled_degreesOfFreedom _).bind fun _ hdf =>
        (defined_of_statistic_eq_ok hg hdf).settled_decideAt alpha

end Fit

namespace Table

variable (t : Table) (alpha : Float)

lemma settled_validate {α : Type} [Arithmetic α] (t : Table) :
    Settled (t.validate : Except (Error α) (Margins α)) :=
  (Check.settled_rectangular t).bind fun _ _ =>
    (Check.settled_positioned _).bind fun _ _ =>
      (Check.settled_marginals _ _).bind fun _ _ => settled_ok _

lemma settled_statistic {α : Type} [Arithmetic α] (t : Table) :
    Settled (t.statistic : Except (Error α) α) :=
  t.settled_validate.bind fun _ _ => settled_ok _

lemma settled_expectedCounts {α : Type} [Arithmetic α] (t : Table) :
    Settled (t.expectedCounts : Except (Error α) (List (List α))) :=
  t.settled_validate.bind fun _ _ => settled_ok _

/-- What comes after the statistic has degrees of freedom, at which the tail is defined. -/
lemma settled_after_statistic {β : Type} {g : Float} (hg : t.statistic = .ok g)
    {f : Nat → Except (Error Float) β} (hf : ∀ df, ChiSquared.Defined g df → Settled (f df)) :
    Settled (t.degreesOfFreedom >>= f) := by
  obtain ⟨hdf, hdefined⟩ := defined_of_statistic_eq_ok hg
  rw [bind_ok hdf]
  exact hf _ hdefined

lemma settled_evaluate : Settled t.evaluate :=
  t.settled_statistic.bind fun _ hg =>
    t.settled_after_statistic hg fun _ hdefined => hdefined.settled_ofStatistic

lemma settled_pValue : Settled t.pValue :=
  t.settled_statistic.bind fun _ hg =>
    t.settled_after_statistic hg fun _ hdefined => hdefined.settled

lemma settled_test : Settled (t.test alpha).result := by
  simp only [test, Logged.result_bind, Logged.result_lift]
  exact (Check.settled_level alpha).bind fun _ _ =>
    t.settled_statistic.bind fun _ hg =>
      t.settled_after_statistic hg fun _ hdefined => hdefined.settled_decideAt alpha

end Table

lemma TwoSample.settled_table {α : Type} (first second : List Int) :
    Settled (table first second : Except (Error α) Table) :=
  (Check.settled_sameLength _ _).bind fun _ _ => settled_ok _

namespace Fourfold

variable {α : Type}

lemma settled_ofMarginals (both countA countB total : Int) :
    Settled (ofMarginals both countA countB total : Except (Error α) Fourfold) := by
  refine (Check.settled_counts _).bind fun _ _ => (Check.settled_counts _).bind fun _ _ => ?_
  dsimp only
  split_ifs
  · exact settled_error rfl
  · exact (Check.settled_counts _).bind fun _ _ => settled_ok _

variable [Arithmetic α] (f : Fourfold)

lemma settled_statistic : Settled (f.statistic : Except (Error α) α) :=
  (Check.settled_counts _).bind fun _ _ => settled_ok _

lemma settled_score : Settled (f.score : Except (Error α) α) := by
  refine f.settled_statistic.bind fun g _ => ?_
  split_ifs
  · exact settled_ok _
  · exact settled_ok _
  · exact settled_ok _

end Fourfold

lemma Screening.settled_significant (tables : List Table) (alpha : Float) (parallel : Bool) :
    Settled (significant tables alpha parallel).result := by
  by_cases h : 0.0 < alpha ∧ alpha < 1.0
  · rw [significant_eq h]
    exact settled_ok _
  · rw [significant_of_not h]
    exact settled_error rfl

namespace Settings

variable (s : Settings)

lemma settled_goodnessOfFit (expected : List Float) (observed : List Int) :
    Settled (s.goodnessOfFit expected observed).result := by
  simp only [goodnessOfFit, Logged.result_bind, Logged.result_lift]
  exact (Check.settled_level _).bind fun _ _ =>
    (Fit.settled_evaluate expected observed s.hypothesis).bind fun _ _ =>
      (settled_ok _).bind fun _ _ => (settled_rejects _ _).bind fun _ _ => settled_ok _

lemma settled_independence (t : Table) : Settled (s.independence t) :=
  (Check.settled_level _).bind fun _ _ =>
    t.settled_evaluate.bind fun _ _ => (settled_rejects _ _).bind fun _ _ => settled_ok _

end Settings

namespace Tally

variable {ι : Type} [Ord ι] (t : Tally ι)

lemma settled_score {α : Type} [Arithmetic α] (a b : ι) :
    Settled (t.score a b : Except (Error α) α) :=
  (Fourfold.settled_ofMarginals _ _ _ _).bind fun f _ => f.settled_score

/-- A list of steps is settled if each of them is. -/
lemma settled_mapM_id {α β : Type} {steps : List (Except (Error α) β)}
    (h : ∀ x ∈ steps, Settled x) : Settled (steps.mapM id) := by
  induction steps with
  | nil => exact settled_ok _
  | cons x steps ih =>
    rw [List.forall_mem_cons] at h
    rw [List.mapM_cons]
    exact h.1.bind fun _ _ => (ih h.2).bind fun _ _ => settled_ok _

lemma settled_top (limit : Nat) (parallel : Bool) : Settled (t.top limit parallel) := by
  refine Settled.bind (settled_mapM_id ?_) fun _ _ => settled_ok _
  rw [Tasks.map_eq, List.forall_mem_map]
  exact fun pair _ => (t.settled_score pair.1 pair.2).bind fun _ _ => settled_ok _

end Tally

/-- **Tests answer or refuse.**  Whatever its data are, each test, each step of it that is on offer
and each score has a result, or refuses the data.  The degrees of freedom that a hypothesis leaves
are all that it does not take away, and there is at least one.  Where the tail of the distribution
is asked for, there are degrees of freedom, there is a distribution, and the tail is defined.  The
first row of a table is looked at once the number of rows has been checked, and is there. -/
theorem answers_or_refuses :
    (∀ (expected : List Float) (observed : List Int) (h : Hypothesis) (alpha : Float),
      Settled (Fit.statistic expected observed) ∧ Settled (Fit.evaluate expected observed h) ∧
        Settled (Fit.pValue expected observed h) ∧
        Settled (Fit.test expected observed h alpha).result) ∧
    (∀ (h : Hypothesis) (k : Nat),
      Settled (h.degreesOfFreedom k : Except (Error Float) Nat) ∧
        ∀ df, (h.degreesOfFreedom k : Except (Error Float) Nat) = .ok df →
          df + h.constraints = k ∧ 0 < df) ∧
    (∀ (t : Table) (alpha : Float),
      Settled (t.statistic : Except (Error Float) Float) ∧
        Settled (t.expectedCounts : Except (Error Float) (List (List Float))) ∧
        Settled t.evaluate ∧ Settled t.pValue ∧ Settled (t.test alpha).result) ∧
    (∀ (first second : List Int) (alpha : Float),
      Settled (TwoSample.statistic first second : Except (Error Float) Float) ∧
        Settled (TwoSample.evaluate first second) ∧ Settled (TwoSample.pValue first second) ∧
        Settled (TwoSample.test first second alpha).result) ∧
    (∀ f : Fourfold, Settled (f.statistic : Except (Error Float) Float) ∧
      Settled (f.score : Except (Error Float) Float)) ∧
    (∀ (tables : List Table) (parallel : Bool),
      (∀ r ∈ Screening.pValues tables parallel, Settled r) ∧
        ∀ alpha : Float, Settled (Screening.significant tables alpha parallel).result) ∧
    (∀ (tables : List Fourfold) (parallel : Bool),
      ∀ r ∈ Screening.scores tables parallel, Settled r) ∧
    (∀ s : Settings,
      (∀ (expected : List Float) (observed : List Int),
        Settled (s.goodnessOfFit expected observed).result) ∧
      (∀ t : Table, Settled (s.independence t)) ∧
      ∀ tables : List Table, Settled (s.significant tables).result) ∧
    (∀ (ι : Type) (_ : Ord ι) (t : Tally ι),
      (∀ a b : ι, Settled (t.table a b : Except (Error Float) Fourfold) ∧
        Settled (t.score a b : Except (Error Float) Float)) ∧
      ∀ (limit : Nat) (parallel : Bool), Settled (t.top limit parallel)) ∧
    (∀ (expected : List Float) (observed : List Int) (h : Hypothesis) (g : Float) (df : Nat),
      Fit.statistic expected observed = .ok g →
      (h.degreesOfFreedom observed.length : Except (Error Float) Nat) = .ok df →
        ChiSquared.Defined g df ∧ ChiSquared.distribution (Float.ofNat df) = .ok () ∧
          (∃ p, ChiSquared.upperTail g df = .ok p) ∧
          Fit.pValue expected observed h = ChiSquared.upperTail g df ∧
          Fit.evaluate expected observed h = Outcome.ofStatistic g df ∧
          ∀ alpha : Float, Check.level alpha = .ok () →
            Fit.test expected observed h alpha = decideAt g df alpha) ∧
    (∀ (t : Table) (g : Float), t.statistic = .ok g →
      ∃ df, (t.degreesOfFreedom : Except (Error Float) Nat) = .ok df ∧
        df = (t.length - 1) * (t.width - 1) ∧ ChiSquared.Defined g df ∧
        ChiSquared.distribution (Float.ofNat df) = .ok () ∧
        (∃ p, ChiSquared.upperTail g df = .ok p) ∧
        t.pValue = ChiSquared.upperTail g df ∧ t.evaluate = Outcome.ofStatistic g df ∧
        ∀ alpha : Float, Check.level alpha = .ok () → t.test alpha = decideAt g df alpha) ∧
    ∀ t : Table, Settled (Check.rectangular t : Except (Error Float) Unit) ∧
      ((Check.categories t.length 2 : Except (Error Float) Unit) = .ok () →
        ∃ row, (t.row 0 : Except (Error Float) (List Int)) = .ok row ∧ row.length = t.width) := by
  refine ⟨fun expected observed h alpha => ?_, fun h k => ⟨h.settled_degreesOfFreedom k, ?_⟩,
    fun t alpha => ?_, fun first second alpha => ?_,
    fun f => ⟨f.settled_statistic, f.settled_score⟩,
    fun tables parallel => ⟨?_, fun alpha => Screening.settled_significant tables alpha parallel⟩,
    fun tables parallel => ?_, fun s => ?_, fun ι _ t => ?_,
    fun expected observed h g df hg hdf => ?_, fun t g hg => ?_,
    fun t => ⟨Check.settled_rectangular t, fun ht => ?_⟩⟩
  · exact ⟨Fit.settled_statistic expected observed, Fit.settled_evaluate expected observed h,
      Fit.settled_pValue expected observed h, Fit.settled_test expected observed h alpha⟩
  · exact fun df hdf => Hypothesis.degreesOfFreedom_eq_ok_iff.1 hdf
  · exact ⟨t.settled_statistic, t.settled_expectedCounts, t.settled_evaluate, t.settled_pValue,
      t.settled_test alpha⟩
  · have htable : Settled (TwoSample.table first second : Except (Error Float) Table) :=
      TwoSample.settled_table first second
    refine ⟨htable.bind fun t _ => t.settled_statistic, htable.bind fun t _ => t.settled_evaluate,
      htable.bind fun t _ => t.settled_pValue, ?_⟩
    rw [TwoSample.test, Logged.result_bind]
    exact htable.bind fun t _ => t.settled_test alpha
  · rw [Screening.pValues, Tasks.map_eq, List.forall_mem_map]
    exact fun t _ => t.settled_pValue
  · rw [Screening.scores, Tasks.map_eq, List.forall_mem_map]
    exact fun f _ => f.settled_score
  · exact ⟨s.settled_goodnessOfFit, s.settled_independence,
      fun tables => Screening.settled_significant tables s.alpha s.parallel⟩
  · exact ⟨fun a b => ⟨Fourfold.settled_ofMarginals _ _ _ _, t.settled_score a b⟩, t.settled_top⟩
  · have hdefined := Fit.defined_of_statistic_eq_ok hg hdf
    refine ⟨hdefined, hdefined.distribution_eq_ok, hdefined.exists_upperTail, ?_, ?_, ?_⟩
    · rw [Fit.pValue, bind_ok hg, bind_ok hdf]
    · rw [Fit.evaluate, bind_ok hg, bind_ok hdf]
    · intro alpha hlevel
      rw [Fit.test, Logged.lift_bind_of_ok _ hlevel, Logged.lift_bind_of_ok _ hg,
        Logged.lift_bind_of_ok _ hdf]
  · obtain ⟨hdf, hdefined⟩ := Table.defined_of_statistic_eq_ok hg
    refine ⟨_, hdf, rfl, hdefined, hdefined.distribution_eq_ok, hdefined.exists_upperTail, ?_, ?_,
      ?_⟩
    · rw [Table.pValue, bind_ok hg, bind_ok hdf]
    · rw [Table.evaluate, bind_ok hg, bind_ok hdf]
    · intro alpha hlevel
      rw [Table.test, Logged.lift_bind_of_ok _ hlevel, Logged.lift_bind_of_ok _ hg,
        Logged.lift_bind_of_ok _ hdf]
  · have hlength : 2 ≤ t.length := Check.categories_eq_ok_iff.1 ht
    exact Table.exists_row_zero (by omega)

/-- Counts that reach the tail, tables of two rows and of an empty one, and too few categories. -/
theorem answers_or_refuses_pair :
    (∃ g : Float, Fit.statistic [3.0, 1.0] [423, 133] = .ok g ∧ ChiSquared.Defined g 1 ∧
      Fit.pValue [3.0, 1.0] [423, 133] .simple = ChiSquared.upperTail g 1) ∧
    (∃ g : Float, Table.statistic [[7, 3], [2, 8]] = .ok g ∧
      (Table.degreesOfFreedom [[7, 3], [2, 8]] : Except (Error Float) Nat) = .ok 1 ∧
      ChiSquared.Defined g 1) ∧
    Settled (Table.pValue [[], [1]]) ∧
    Settled (Hypothesis.degreesOfFreedom .intrinsic 1 : Except (Error Float) Nat) := by
  obtain ⟨-, hfreedom, htable, -, -, -, -, -, -, hfit, htail, -⟩ := answers_or_refuses
  have hdata : Fit.Comparable [(3.0 : Float), 1.0] [423, 133] :=
    ⟨by decide, rfl, by decide +kernel, by decide⟩
  have haccepted : Table.Accepted Float [[7, 3], [2, 8]] :=
    ⟨_, Table.validate_eq_ok_iff.2 ⟨⟨by decide, by decide +kernel, by decide +kernel⟩, rfl⟩⟩
  refine ⟨⟨_, hdata.statistic_eq, ?_⟩, ⟨_, haccepted.statistic_eq, ?_⟩, ?_, ?_⟩
  · obtain ⟨hdefined, -, -, hpValue, -⟩ := hfit _ _ .simple _ 1 hdata.statistic_eq rfl
    exact ⟨hdefined, hpValue⟩
  · obtain ⟨df, hdf, rfl, hdefined, -⟩ := htail _ _ haccepted.statistic_eq
    exact ⟨hdf, hdefined⟩
  · exact (htable [[], [1]] 0.05).2.2.2.1
  · exact (hfreedom .intrinsic 1).1

end LikelihoodRatio
