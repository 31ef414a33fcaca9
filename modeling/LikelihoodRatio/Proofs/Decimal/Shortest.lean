/-
# The shortest decimal reads back

The decimal that is written for a finite number is read as the magnitude of the number
(`toFloat_shortest`).  A decimal with few digits is taken only if it reads back.  If there is none,
all digits are written, and the number is held exactly (`toFloat_exact`), since a decimal is read as
the nearest number (`roundsTo_toFloat`).
-/
import LikelihoodRatio.Decimal.Shortest
import LikelihoodRatio.Proofs.Binary64.Fields
import LikelihoodRatio.Proofs.Binary64.Lossless

namespace LikelihoodRatio.Decimal

open Binary64

variable {x : Float} {d : Decimal}

/-- The rational number that a decimal stands for. -/
def value (d : Decimal) : ℚ := d.digits * 10 ^ d.exponent

/-! ### Zeros at the end -/

lemma value_trimmed (digits : ℕ) (exponent : ℤ) :
    (trimmed digits exponent).value = digits * 10 ^ exponent := by
  induction digits, exponent using trimmed.induct with
  | case1 digits exponent h ih =>
    have hdigits : (digits : ℚ) = (digits / 10 : ℕ) * 10 := by
      exact_mod_cast (Nat.div_mul_cancel (Nat.dvd_of_mod_eq_zero h.2)).symm
    rw [trimmed, if_pos h, ih, hdigits, mul_assoc, ← zpow_one_add₀ (by norm_num), add_comm exponent]
  | case2 digits exponent h =>
    rw [trimmed, if_neg h]
    rfl

/-- Zeros at the end can be moved to the power of ten. -/
lemma trimmed_mul_pow {digits : ℕ} (hne : digits ≠ 0) (exponent : ℤ) (k : ℕ) :
    trimmed (digits * 10 ^ k) exponent = trimmed digits (exponent + k) := by
  induction k generalizing exponent with
  | zero => simp
  | succ k ih =>
    have hdigits : digits * 10 ^ (k + 1) = digits * 10 ^ k * 10 := by rw [pow_succ, mul_assoc]
    have hpos : 0 < digits * 10 ^ k := by positivity
    rw [trimmed, if_pos (by omega), hdigits, Nat.mul_div_cancel _ (by norm_num), ih]
    congr 1
    push_cast
    ring

lemma toFloat_mul_pow {digits : ℕ} (hne : digits ≠ 0) (exponent : ℤ) (k : ℕ) :
    (⟨digits * 10 ^ k, exponent⟩ : Decimal).toFloat =
      (⟨digits, exponent + k⟩ : Decimal).toFloat := by
  rw [toFloat, toFloat, trimmed_mul_pow hne]

/-! ### Reading decimals -/

/-- A decimal is read as the nearest number. -/
theorem roundsTo_toFloat (d : Decimal) : RoundsTo d.value (parts d.toFloat) := by
  have hround := roundsTo_ofScientific (trimmed d.digits d.exponent).digits
    (trimmed d.digits d.exponent).exponent
  rw [value, ← value_trimmed]
  exact hround

lemma value_exact (x : Float) : (exact x).value = Binary.mantissa x * 2 ^ Binary.exponent x := by
  rw [exact, value_trimmed, Nat.pow_eq, Nat.pow_eq]
  rcases Int.le_total 0 (Binary.exponent x) with hexp | hexp
  · obtain ⟨k, hk⟩ := Int.eq_ofNat_of_zero_le hexp
    rw [hk, Int.toNat_natCast, Int.toNat_of_nonpos (by omega), min_eq_right (by omega)]
    push_cast
    rw [mul_one, mul_one, zpow_natCast]
  · obtain ⟨k, hk⟩ := Int.eq_ofNat_of_zero_le (neg_nonneg.2 hexp)
    -- Five digits are written for each power of two in the denominator.
    have hten : (5 : ℚ) ^ k * 10 ^ (-k : ℤ) = 2 ^ (-k : ℤ) := by
      rw [zpow_neg, zpow_neg, zpow_natCast, zpow_natCast, ← div_eq_mul_inv, ← div_pow, ← inv_pow]
      norm_num
    rw [hk, Int.toNat_natCast, Int.toNat_of_nonpos hexp, min_eq_left hexp,
      ← neg_eq_iff_eq_neg.2 hk.symm]
    push_cast
    rw [mul_one, mul_assoc, hten]

/-- Written with all its digits, a number is read back. -/
lemma toFloat_exact (hx : x.isFinite = true) (hne : Binary.mantissa x ≠ 0) :
    (exact x).toFloat = x.abs := by
  have habs := standsFor_abs hx
  have hpos : (Binary.mantissa x : ℚ) * 2 ^ Binary.exponent x ≠ 0 := by positivity
  have hround := roundsTo_toFloat (exact x)
  rw [value_exact, ← habs.value_eq] at hround
  have hexact := hround.standsFor (representable_value habs.isFinite)
    (storable_parts_iff.2 habs.isFinite).abs_rational_le
  rw [habs.value_eq] at hexact
  exact hexact.eq habs hpos

lemma toFloat_of_readsBackAs (h : readsBackAs x d = true) : d.toFloat = x :=
  Float.toBits_inj.1 (of_decide_eq_true h)

/-- A decimal with few digits is taken only if it reads back. -/
lemma toFloat_ofDigitCount? {tie : Tie} {n : ℕ} (h : ofDigitCount? tie x n = some d) :
    d.toFloat = x := by
  refine toFloat_of_readsBackAs ?_
  unfold ofDigitCount? at h
  dsimp only at h
  split at h
  · -- Both neighbours read back, whichever of them is nearer.
    split at h
    · obtain rfl := Option.some.inj h
      assumption
    · obtain rfl := Option.some.inj h
      assumption
    · obtain rfl := Option.some.inj h
      assumption
    · obtain rfl := Option.some.inj h
      split_ifs <;> assumption
  · obtain rfl := Option.some.inj h
    assumption
  · obtain rfl := Option.some.inj h
    assumption
  · cases h

/-- **The shortest decimal reads back.** -/
theorem toFloat_shortest (tie : Tie) (hx : x.isFinite = true) :
    (shortest tie x).toFloat = x.abs := by
  rw [shortest]
  split_ifs with hzero
  · have hread : (⟨0, 0⟩ : Decimal).toFloat = 0.0 := by
      rw [toFloat, trimmed, if_neg (by simp)]
      decide +kernel
    refine hread.trans (eq_of_parts_eq ?_)
    rw [parts_abs hx, dif_neg (by omega)]
    rfl
  · cases hfound : (List.range' 1 17).findSome? (ofDigitCount? tie x.abs) with
    | none => exact toFloat_exact hx hzero
    | some d =>
      obtain ⟨n, -, hn⟩ := List.exists_of_findSome?_eq_some hfound
      exact toFloat_ofDigitCount? hn

/-- Only zero is written without a digit. -/
lemma shortest_digits_eq_zero {tie : Tie} (hx : x.isFinite = true)
    (h : (shortest tie x).digits = 0) : shortest tie x = ⟨0, 0⟩ := by
  have habs := standsFor_abs hx
  have hround := roundsTo_toFloat (shortest tie x)
  rw [toFloat_shortest tie hx, value, h, Nat.cast_zero, zero_mul] at hround
  have hvalue := (hround.nearest habs.isFinite).eq_of_representable representable_zero
  rw [habs.value_eq] at hvalue
  have hzero : Binary.mantissa x = 0 := by
    simpa [zpow_ne_zero] using hvalue
  rw [shortest, if_pos hzero]

end LikelihoodRatio.Decimal
