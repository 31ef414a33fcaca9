/-
# Doubled numbers

Twice a number is never so small that half of it is rounded to zero: it is at least twice the
smallest number.
-/
import LikelihoodRatio.Proofs.Binary64.Arithmetic

namespace LikelihoodRatio.Binary64

open Float.Model Float.Model.UnpackedFloat

variable {s : Float}

lemma parts_two : parts 2.0 = .finite .positive (2 ^ 52) (-51) (by decide) := rfl

lemma parts_half : parts 0.5 = .finite .positive (2 ^ 52) (-53) (by decide) := rfl

lemma value_two : value 2.0 = 2 := by
  rw [value, parts_two, rational_positive]
  norm_num

lemma value_half : value 0.5 = 1 / 2 := by
  rw [value, parts_half, rational_positive]
  norm_num

/-- Only a finite number has a finite double. -/
lemma isFinite_of_double (h : (2.0 * s).isFinite = true) : s.isFinite = true := by
  have hfinite : (Float.Model.pack
      (UnpackedFloat.mul .binary64 (parts 2.0) (parts s))).unpack.isFinite = true := h
  change (parts s).isFinite = true
  cases hparts : parts s with
  | notANumber =>
    rw [parts_two, hparts] at hfinite
    cases hfinite
  | infinity sign =>
    rw [parts_two, hparts] at hfinite
    cases sign <;> cases hfinite
  | zero sign => rfl
  | finite sign m e hm => rfl

/-- A positive number that is twice another one is large enough to be halved. -/
lemma value_double_ge (hfinite : (2.0 * s).isFinite = true) (hpos : 0 < value (2.0 * s)) :
    2 ^ (-1073 : ℤ) ≤ value (2.0 * s) := by
  have hs := isFinite_of_double hfinite
  have hdouble := roundsTo_mul (show (2.0 : Float).isFinite = true from rfl) hs
  rw [value_two] at hdouble
  have hnear := hdouble.nearest hfinite
  have hspos : 0 < value s := by
    by_contra hle
    exact hpos.not_ge (hnear.le_of_le representable_zero (by linarith))
  have hle := (storable_parts_iff.2 hs).representable.le_of_pos hspos
  refine hnear.ge_of_ge (representable_two_zpow (by norm_num)) ?_
  calc (2 : ℚ) ^ (-1073 : ℤ)
      = 2 * 2 ^ (-1074 : ℤ) := zpow_one_add₀ two_ne_zero (-1074)
    _ ≤ 2 * value s := by gcongr; exact hle

lemma half_ne_zero_of_isFinite (hpos : 0.0 < 2.0 * s) (hfinite : (2.0 * s).isFinite = true) :
    ¬(2.0 * s * 0.5 == 0.0) = true := by
  have hge := value_double_ge hfinite ((pos_iff_value hfinite).1 hpos)
  have hhalf : (2 : ℚ) ^ (-1074 : ℤ) ≤ value (2.0 * s) * value 0.5 := by
    have hpow : (2 : ℚ) ^ (-1073 : ℤ) = 2 * 2 ^ (-1074 : ℤ) := zpow_one_add₀ two_ne_zero (-1074)
    rw [value_half]
    linarith
  rcases roundsTo_mul hfinite (show (0.5 : Float).isFinite = true from rfl) with
    ⟨hstorable, hnear⟩ | ⟨sign, hparts, -⟩
  · have hpos := hnear.ge_of_ge (representable_two_zpow (by norm_num)) hhalf
    rw [beq_zero_iff_value (storable_parts_iff.1 hstorable)]
    exact ((zpow_pos two_pos _).trans_le hpos).ne'
  · rw [beq_zero_iff]
    rintro ⟨sign', hzero⟩
    rw [hzero] at hparts
    cases hparts

/-- Half of twice a number is not zero unless the number is. -/
theorem half_double_ne_zero (hpos : 0.0 < 2.0 * s) : (2.0 * s * 0.5 == 0.0) = false := by
  rw [← Bool.not_eq_true]
  rcases zero_lt_iff.1 hpos with hparts | ⟨m, e, hm, hparts⟩
  · have hhalf : parts (2.0 * s * 0.5) = .infinity .positive := by
      change (Float.Model.pack
        (UnpackedFloat.mul .binary64 (parts (2.0 * s)) (parts 0.5))).unpack = _
      rw [hparts, parts_half]
      exact unpack_infinity .positive
    rw [beq_zero_iff, hhalf]
    rintro ⟨sign, hzero⟩
    cases hzero
  · refine half_ne_zero_of_isFinite hpos ?_
    rw [← storable_parts_iff, hparts]
    exact stored_of_unpack hparts

end LikelihoodRatio.Binary64
