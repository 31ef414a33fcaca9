/-
# From statistics to decisions

All tests double a sum, take the upper tail of the result, and compare it with a significance level.
The tail is defined for every doubled number (`defined_double`), so a test that has degrees of
freedom fails only on its data.  A decision can be made from the statistic or from an outcome, and
comes out the same (`result_decideAt`, `ofStatistic_bind_rejectsAt`).
-/
import LikelihoodRatio.Outcome.Basic
import LikelihoodRatio.Proofs.Binary64.Doubling
import LikelihoodRatio.Proofs.Binary64.Scientific
import LikelihoodRatio.Proofs.Checks

namespace LikelihoodRatio

namespace ChiSquared

variable {value : Float} {df : Nat}

/-- The tail is defined: the distribution has degrees of freedom, as a number too, and a value that
is positive is still so if it is halved. -/
structure Defined (value : Float) (df : Nat) : Prop where
  freedom_pos : 0 < df
  shape_pos : 0.0 < Float.ofNat df
  half_ne_zero : 0.0 < value → (value * 0.5 == 0.0) = false

lemma defined_zero (hdf : df ≠ 0) : Defined 0.0 df where
  freedom_pos := Nat.pos_of_ne_zero hdf
  shape_pos := Binary64.zero_lt_ofNat (Nat.pos_of_ne_zero hdf)
  half_ne_zero hpos := absurd hpos (Binary64.lt_irrefl 0.0)

/-- The tail is defined at every doubled number. -/
lemma defined_double (s : Float) (hdf : df ≠ 0) : Defined (2.0 * s) df where
  freedom_pos := Nat.pos_of_ne_zero hdf
  shape_pos := Binary64.zero_lt_ofNat (Nat.pos_of_ne_zero hdf)
  half_ne_zero := Binary64.half_double_ne_zero

/-- Degrees of freedom have a distribution. -/
lemma Defined.distribution_eq_ok (h : Defined value df) : distribution (Float.ofNat df) = .ok () :=
  if_pos h.shape_pos

lemma Defined.exists_upperTail (h : Defined value df) : ∃ p, upperTail value df = .ok p := by
  rw [upperTail, if_neg h.freedom_pos.ne', bind_ok h.distribution_eq_ok, survival]
  by_cases hpos : 0.0 < value
  · rw [if_pos hpos, h.half_ne_zero hpos]
    cases value.isInf with
    | true => exact ⟨_, rfl⟩
    | false => exact ⟨_, rfl⟩
  · rw [if_neg hpos]
    exact ⟨_, rfl⟩

end ChiSquared

/-- Where the tail is defined, a statistic has an outcome. -/
lemma ChiSquared.Defined.exists_ofStatistic {value : Float} {df : Nat} (h : Defined value df) :
    ∃ p, upperTail value df = .ok p ∧ Outcome.ofStatistic value df = .ok ⟨value, df, p⟩ := by
  obtain ⟨p, hp⟩ := h.exists_upperTail
  exact ⟨p, hp, bind_ok hp _⟩

variable {alpha beta : Float}

/-- The outcome of a comparison with a significance level. -/
def below (alpha p : Float) : Bool := decide (p < alpha)

lemma below_of_le (hle : alpha ≤ beta) {p : Float} (h : below alpha p = true) :
    below beta p = true :=
  decide_eq_true (Binary64.lt_of_lt_of_le (of_decide_eq_true h) hle)

/-- At a level between zero and one, what comes after the check of the level is all there is. -/
lemma level_bind (h : 0.0 < alpha ∧ alpha < 1.0) {β : Type} (f : Unit → Logged β) :
    liftM (Check.level alpha) >>= f = f () :=
  Logged.lift_bind_of_ok f (Check.level_eq_ok_iff.2 h)

/-- At any other level there is an error, and no entry in the log. -/
lemma level_bind_of_not (h : ¬(0.0 < alpha ∧ alpha < 1.0)) {β : Type} (f : Unit → Logged β) :
    liftM (Check.level alpha) >>= f = ⟨.error (.significanceOutOfRange alpha), []⟩ :=
  Logged.lift_bind_of_error f (Check.level_eq_error h)

lemma rejects_eq (h : 0.0 < alpha ∧ alpha < 1.0) (p : Float) :
    rejects p alpha = .ok (below alpha p) := by
  rw [rejects, Check.level_eq_ok_iff.2 h]
  rfl

lemma result_decideAt (h : 0.0 < alpha ∧ alpha < 1.0) (g : Float) (df : Nat) :
    (decideAt g df alpha).result = (ChiSquared.upperTail g df).map (below alpha) := by
  rw [decideAt, level_bind h]
  cases ChiSquared.upperTail g df with
  | error e => rfl
  | ok p => rfl

/-- A decision follows the tail, and fails with it for want of degrees of freedom. -/
lemma result_bind_decideAt (h : 0.0 < alpha ∧ alpha < 1.0) (g : Float)
    (freedom : Except (Error Float) Nat) :
    (liftM freedom >>= fun df => decideAt g df alpha).result =
      (freedom >>= fun df => ChiSquared.upperTail g df).map (below alpha) := by
  cases freedom with
  | error e => rfl
  | ok df => exact result_decideAt h g df

/-- Where the tail is defined, a level between zero and one decides. -/
lemma ChiSquared.Defined.exists_decideAt {g : Float} {df : Nat} (h : Defined g df)
    (hlevel : 0.0 < alpha ∧ alpha < 1.0) :
    ∃ decision, (decideAt g df alpha).result = .ok decision := by
  obtain ⟨p, hp⟩ := h.exists_upperTail
  rw [result_decideAt hlevel, hp]
  exact ⟨_, rfl⟩

lemma ofStatistic_bind_rejectsAt (h : 0.0 < alpha ∧ alpha < 1.0) (g : Float) (df : Nat) :
    Outcome.ofStatistic g df >>= (·.rejectsAt alpha) =
      (ChiSquared.upperTail g df).map (below alpha) := by
  rw [Outcome.ofStatistic]
  cases ChiSquared.upperTail g df with
  | error e => rfl
  | ok p => exact rejects_eq h p

end LikelihoodRatio
