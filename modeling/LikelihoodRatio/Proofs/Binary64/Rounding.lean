/-
# Rounding to binary64

A finite number is a mantissa times a power of two, and it is stored with a mantissa of at most 53
bits: of exactly 53 unless the exponent is the smallest one (`Stored`).  A result with more bits is
shifted to the right until it fits, and then rounded to the nearest mantissa (`rounded`).  Rounding
may carry into one more bit, which takes another shift and loses nothing (`stored_shift`).
-/
import Mathlib.Data.Nat.Log
import Mathlib.Tactic.NormNum
import Mathlib.Tactic.Positivity
import Mathlib.Tactic.Common

namespace LikelihoodRatio.Binary64

open Float.Model Float.Model.UnpackedFloat

/-- A mantissa and an exponent as they are stored. -/
structure Stored (m : Nat) (e : Int) : Prop where
  lt : m < 2 ^ 53
  le_exponent : -1074 ≤ e
  full : 2 ^ 52 ≤ m ∨ e = -1074

/-! ### Shifts -/

lemma mantissa_shiftRight (em : ExtendedMantissa) (k : Nat) :
    (em >>> k).mantissa = em.mantissa / 2 ^ k := by
  change (Nat.repeat ExtendedMantissa.shiftRightOne k em).mantissa = _
  induction k with
  | zero => rw [pow_zero, Nat.div_one]; rfl
  | succ k ih =>
    change (Nat.repeat ExtendedMantissa.shiftRightOne k em).mantissa / 2 = _
    rw [ih, Nat.div_div_eq_div_mul, pow_succ]

/-- By how much a mantissa is shifted. -/
def shiftAmount (m : Nat) (e : Int) : Nat :=
  (Format.binary64.targetExponent (totalExponent m e) - e).toNat

lemma shiftAmount_eq (m : Nat) (e : Int) :
    shiftAmount m e = (max (m.log2 + e - 52) (-1074) - e).toNat := by
  have htarget : Format.binary64.targetExponent (totalExponent m e) =
      max ((m.log2 : Int) + 1 + e - (53 : Nat)) (-1074) := rfl
  rw [shiftAmount, htarget]
  omega

lemma mantissa_shiftToTargetExponent (m : Nat) (e : Int) :
    (shiftToTargetExponent .binary64 m e .exact).1.mantissa = m / 2 ^ shiftAmount m e :=
  mantissa_shiftRight _ _

/-! ### Results -/

/-- The second shift makes room for a carry and drops nothing. -/
lemma stored_shift {r : Nat} {e : Int} (hpos : 0 < r) (hle : r ≤ 2 ^ 53) (he : -1074 ≤ e)
    (hfull : 2 ^ 52 ≤ r ∨ e = -1074) :
    Stored (r / 2 ^ shiftAmount r e) (e + shiftAmount r e) ∧
      r / 2 ^ shiftAmount r e * 2 ^ shiftAmount r e = r := by
  rcases hle.lt_or_eq with hlt | rfl
  · have hlog : r.log2 < 53 := (Nat.log2_lt hpos.ne').2 hlt
    have hshift : shiftAmount r e = 0 := by
      rw [shiftAmount_eq]
      omega
    rw [hshift, pow_zero, Nat.div_one, mul_one]
    exact ⟨⟨hlt, by omega, by omega⟩, rfl⟩
  · have hlog : (2 ^ 53 : Nat).log2 = 53 := Nat.log2_two_pow
    have hshift : shiftAmount (2 ^ 53) e = 1 := by
      rw [shiftAmount_eq, hlog]
      omega
    rw [hshift]
    exact ⟨⟨by decide, by omega, .inl (by decide)⟩, by decide⟩

/-- A mantissa that is shifted once and rounded. -/
def rounded (m : Nat) (e : Int) (accuracy : Accuracy) : Nat :=
  (shiftToTargetExponent .binary64 m e accuracy).1.roundedMantissa

lemma roundWithAccuracy_zero (sign : Sign) {m : Nat} {e : Int} {accuracy : Accuracy}
    (h : rounded m e accuracy = 0) :
    roundWithAccuracy .binary64 sign m e accuracy = .zero sign := by
  have hmantissa := mantissa_shiftToTargetExponent (rounded m e accuracy) (e + shiftAmount m e)
  rw [h, Nat.zero_div] at hmantissa
  change dite _ _ _ = _
  rw [dif_pos]
  change (shiftToTargetExponent .binary64 (rounded m e accuracy) (e + shiftAmount m e)
    .exact).1.mantissa = 0
  rw [h, hmantissa]

lemma roundWithAccuracy_pos (sign : Sign) {m : Nat} {e : Int} {accuracy : Accuracy}
    (h : 0 < rounded m e accuracy / 2 ^ shiftAmount (rounded m e accuracy) (e + shiftAmount m e)) :
    roundWithAccuracy .binary64 sign m e accuracy = .finite sign
      (rounded m e accuracy / 2 ^ shiftAmount (rounded m e accuracy) (e + shiftAmount m e))
      (e + shiftAmount m e + shiftAmount (rounded m e accuracy) (e + shiftAmount m e)) h := by
  have hmantissa := mantissa_shiftToTargetExponent (rounded m e accuracy) (e + shiftAmount m e)
  change dite _ _ _ = _
  rw [dif_neg (hmantissa ▸ h.ne')]
  congr 1

end LikelihoodRatio.Binary64
