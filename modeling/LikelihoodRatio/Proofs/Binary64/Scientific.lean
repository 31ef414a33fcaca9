/-
# Decimals are read as the nearest number

A whole number times a power of ten is rounded once to the nearest binary64 number
(`roundsTo_ofScientific`), and so is a whole number (`roundsTo_ofInt`).  The general way is to
multiply or divide with as many bits as are needed, unless the power is so large or so small that
the result is clear beforehand (`roundsTo_unpackedOfScientific`).  For a small whole number and a
small power there is a shorter way: both are held exactly, and one operation rounds.
-/
import LikelihoodRatio.Proofs.Binary64.Arithmetic

namespace LikelihoodRatio.Binary64

open Float.Model Float.Model.UnpackedFloat

variable {m k n : ℕ} {e : ℤ}

/-! ### The general way -/

lemma exponentBits_eq : (2 : ℤ) ^ Format.binary64.exponentBits = 2048 := rfl

/-- A power of ten that is too large for every whole number. -/
lemma safe_lt_of_large (hm : 0 < m) (he : 2048 < e) : safe < m * 10 ^ e := by
  have hone : (1 : ℚ) ≤ m := by exact_mod_cast hm
  obtain ⟨k, rfl⟩ : ∃ k : ℕ, e = k := ⟨e.natAbs, by omega⟩
  calc safe
      < 2 ^ (k : ℤ) := safe_lt_two_zpow (by omega)
    _ ≤ 10 ^ (k : ℤ) := by
      rw [zpow_natCast, zpow_natCast]
      gcongr
      norm_num
    _ ≤ m * 10 ^ (k : ℤ) := le_mul_of_one_le_left (by positivity) hone

/-- What is at most half of the smallest number is rounded to zero. -/
lemma nearest_zero {q : ℚ} (hq : 0 ≤ q) (hle : 2 * q ≤ 2 ^ (-1074 : ℤ)) : Nearest q 0 := by
  refine ⟨representable_zero, fun b hb => ?_⟩
  rw [zero_sub, abs_neg, abs_of_nonneg hq]
  rcases lt_trichotomy b 0 with hneg | rfl | hpos
  · rw [abs_of_neg (by linarith)]
    linarith
  · rw [zero_sub, abs_neg]
    exact le_abs_self q
  · have hmin := hb.le_of_pos hpos
    exact le_trans (by linarith) (le_abs_self (b - q))

/-- A power of ten that is too small for a whole number of some bits. -/
lemma nearest_zero_of_small (he : e < -(2048 + m.log2)) : Nearest (m * 10 ^ e) 0 := by
  have hm : (m : ℚ) ≤ 2 ^ (m.log2 + 1 : ℤ) := by exact_mod_cast Nat.lt_log2_self.le
  have hten : (10 : ℚ) ^ e ≤ 2 ^ e := by
    obtain ⟨k, rfl⟩ : ∃ k : ℕ, e = -k := ⟨e.natAbs, by omega⟩
    rw [zpow_neg, zpow_neg, zpow_natCast, zpow_natCast]
    gcongr
    norm_num
  refine nearest_zero (by positivity) ?_
  calc 2 * (m * (10 : ℚ) ^ e)
      ≤ 2 * (2 ^ (m.log2 + 1 : ℤ) * 2 ^ e) := by gcongr
    _ = 2 ^ (1 + (m.log2 + 1 + e) : ℤ) := by
      rw [← zpow_add₀ two_ne_zero, zpow_one_add₀ two_ne_zero]
    _ ≤ 2 ^ (-1074 : ℤ) := zpow_le_zpow_right₀ one_le_two (by omega)

/-- A product with all its bits. -/
lemma roundsTo_shifted_mul (hm : 0 < m) (hn : 0 < n) :
    RoundsTo (m * n) (Float.Model.pack (roundWithAccuracy .binary64 .positive
      (m <<< 53 * n) (-53 + 0) .exact)).unpack := by
  have hlong : 52 ≤ (m <<< 53 * n).log2 ∨ (-53 + 0 : ℤ) ≤ -1074 := by
    rw [Nat.shiftLeft_eq, Nat.le_log2 (by positivity)]
    left
    calc 2 ^ 52
        ≤ 1 * 2 ^ 53 * 1 := by norm_num
      _ ≤ m * 2 ^ 53 * n := Nat.mul_le_mul (Nat.mul_le_mul_right _ hm) hn
  have hround := roundsTo_roundWithAccuracy .positive
    (show Located (m <<< 53 * n) .exact (m <<< 53 * n : ℕ) from rfl) hlong
  have hvalue : (Sign.positive.apply 1 : ℚ) * ((m <<< 53 * n : ℕ) * 2 ^ (-53 + 0 : ℤ)) = m * n := by
    rw [Nat.shiftLeft_eq]
    norm_num [Sign.apply]
    ring
  rwa [hvalue] at hround

lemma roundsTo_unpackedOfScientific (m : ℕ) (e : ℤ) :
    RoundsTo (m * 10 ^ e)
      (Float.Model.pack (UnpackedFloat.ofScientific .binary64 m e)).unpack := by
  rw [UnpackedFloat.ofScientific, exponentBits_eq]
  split_ifs with hm hlarge hsmall hneg
  · rw [hm, Nat.cast_zero, zero_mul]
    exact roundsTo_zero .positive
  · have hlt := safe_lt_of_large (Nat.pos_of_ne_zero hm) hlarge
    refine .inr ⟨.positive, unpack_infinity .positive, ?_⟩
    rwa [Sign.apply, Int.cast_one, one_mul]
  · rw [Storable.unpack_pack (show Storable (.zero .positive) from trivial)]
    exact .inl ⟨trivial, nearest_zero_of_small hsmall⟩
  · obtain ⟨k, rfl⟩ : ∃ k : ℕ, e = k := ⟨e.toNat, by omega⟩
    have hround := roundsTo_shifted_mul (Nat.pos_of_ne_zero hm) (show 0 < 10 ^ k by positivity)
    rw [zpow_natCast]
    exact_mod_cast hround
  · obtain ⟨k, rfl⟩ : ∃ k : ℕ, e = -k := ⟨(-e).toNat, by omega⟩
    have hround := roundsTo_divCore .positive (Nat.pos_of_ne_zero hm)
      (show 0 < 10 ^ k by positivity) 0 0
    have hvalue : (Sign.positive.apply 1 : ℚ) * (m * 2 ^ (0 : ℤ) / ((10 ^ k : ℕ) * 2 ^ (0 : ℤ))) =
        m * 10 ^ (-k : ℤ) := by
      rw [zpow_neg, zpow_natCast, zpow_zero, Sign.apply, div_eq_mul_inv]
      push_cast
      ring
    rw [hvalue] at hround
    have hexp : (- -(k : ℤ)).toNat = k := by omega
    simp only [hexp]
    exact hround

/-! ### The short way -/

/-- A power of ten is a power of five, shifted. -/
lemma representable_ten_pow (hk : k ≤ 22) : Representable (10 ^ k) := by
  refine ⟨5 ^ k, k, ?_, by omega, ?_⟩
  · rw [abs_of_pos (by positivity)]
    exact (pow_le_pow_right₀ (by norm_num) hk).trans (by norm_num)
  · rw [zpow_natCast]
    push_cast
    rw [← mul_pow]
    norm_num

lemma standsFor_powerOfTen (hk : k < Float.exactlyRepresentablePowersOfTen.size) :
    StandsFor Float.exactlyRepresentablePowersOfTen[k] (10 ^ k) := by
  have htable : ∀ i : Fin 23, Float.exactlyRepresentablePowersOfTen[i] =
      .ofModel (Float.Model.ofScientific (10 ^ i.val) 0) := by
    decide +kernel
  have hle : k ≤ 22 := Nat.lt_succ_iff.1 hk
  have hround : RoundsTo (10 ^ k) (parts Float.exactlyRepresentablePowersOfTen[k]) := by
    have hround := roundsTo_unpackedOfScientific (10 ^ k) 0
    rw [zpow_zero, mul_one, Nat.cast_pow] at hround
    rw [show Float.exactlyRepresentablePowersOfTen[k] = _ from htable ⟨k, hk⟩]
    exact hround
  refine hround.standsFor (representable_ten_pow hle) ?_
  rw [abs_of_pos (by positivity)]
  calc (10 : ℚ) ^ k
      ≤ 10 ^ 22 := pow_le_pow_right₀ (by norm_num) hle
    _ ≤ 2 ^ (74 : ℤ) := by norm_num
    _ ≤ safe := two_zpow_le_safe (by norm_num)

/-- A whole number of 53 bits is converted without loss. -/
lemma standsFor_toUInt64 (hn : n < 2 ^ 53) : StandsFor n.toUInt64.toFloat n := by
  have hword : n.toUInt64.toNat = n := Nat.mod_eq_of_lt (by omega)
  have hround : RoundsTo n.toUInt64.toNat (parts n.toUInt64.toFloat) := by
    have hround := roundsTo_normalize n.toUInt64.toNat 0
    rw [zpow_zero, mul_one, Int.cast_natCast] at hround
    exact hround
  have hle : |(n : ℤ)| ≤ 2 ^ 53 := by
    rw [Nat.abs_cast]
    exact_mod_cast hn.le
  have hsafe : |(n : ℚ)| ≤ 2 ^ (53 : ℤ) := by exact_mod_cast hle
  rw [hword] at hround
  exact hround.standsFor (by exact_mod_cast representable_intCast hle)
    (hsafe.trans (two_zpow_le_safe (by norm_num)))

lemma roundsTo_ofScientific_of_lt (hm : m < 2 ^ 53) (he : e.natAbs ≤ 22) :
    RoundsTo (m * 10 ^ e) (parts (Float.ofScientific m (decide (e < 0)) e.natAbs)) := by
  have hword := standsFor_toUInt64 hm
  have hpower := standsFor_powerOfTen (Nat.lt_succ_iff.2 he)
  rw [Float.ofScientific, dif_pos ⟨hm, he⟩]
  by_cases hneg : e < 0
  · have hexp : (10 : ℚ) ^ e = (10 ^ e.natAbs)⁻¹ := by
      rw [← zpow_natCast, ← zpow_neg]
      congr 1
      omega
    have hdiv := roundsTo_div hword.isFinite hpower.isFinite
      (by rw [hpower.value_eq]; positivity)
    rw [hword.value_eq, hpower.value_eq, div_eq_mul_inv, ← hexp] at hdiv
    simp only [hneg, decide_true, if_true]
    exact hdiv
  · have hexp : (10 : ℚ) ^ e = 10 ^ e.natAbs := by
      rw [← zpow_natCast]
      congr 1
      omega
    have hmul := roundsTo_mul hword.isFinite hpower.isFinite
    rw [hword.value_eq, hpower.value_eq, ← hexp] at hmul
    simp only [hneg, decide_false, Bool.false_eq_true, if_false]
    exact hmul

/-- **A decimal is read as the nearest number.** -/
theorem roundsTo_ofScientific (m : ℕ) (e : ℤ) :
    RoundsTo (m * 10 ^ e) (parts (Float.ofScientific m (decide (e < 0)) e.natAbs)) := by
  by_cases hsmall : m < 2 ^ 53 ∧ e.natAbs ≤ 22
  · exact roundsTo_ofScientific_of_lt hsmall.1 hsmall.2
  · -- The power of ten is put together from its sign and its magnitude.
    have hexp :
        (if decide (e < 0) = true then Int.negOfNat e.natAbs else Int.ofNat e.natAbs) = e := by
      rw [Int.negOfNat_eq, Int.ofNat_eq_natCast]
      by_cases hneg : e < 0
      · simp only [hneg, decide_true, if_true]
        omega
      · simp only [hneg, decide_false, Bool.false_eq_true, if_false]
        omega
    rw [Float.ofScientific, dif_neg hsmall]
    dsimp only
    rw [hexp]
    exact roundsTo_unpackedOfScientific m e

/-! ### Whole numbers -/

theorem roundsTo_ofNat (n : ℕ) : RoundsTo n (parts (Float.ofNat n)) := by
  have hround := roundsTo_ofScientific n 0
  rw [zpow_zero, mul_one] at hround
  exact hround

/-- A positive whole number is converted to a positive number, however large it is. -/
lemma zero_lt_ofNat (hn : 0 < n) : 0.0 < Float.ofNat n := by
  have hone : (1 : ℚ) ≤ n := by exact_mod_cast hn
  exact (roundsTo_ofNat n).pos_of_le (representable_two_zpow (by norm_num : -1074 ≤ (0 : ℤ)))
    one_pos hone

theorem roundsTo_ofInt (n : ℤ) : RoundsTo n (parts (Float.ofInt n)) := by
  cases n with
  | ofNat n => exact roundsTo_ofNat n
  | negSucc n =>
    have hround := (roundsTo_ofNat (n + 1)).neg
    rw [← parts_neg] at hround
    rw [Int.cast_negSucc]
    exact hround

end LikelihoodRatio.Binary64
