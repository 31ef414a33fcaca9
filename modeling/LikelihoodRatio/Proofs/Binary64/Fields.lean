/-
# The fields of a number

The sign bit, the mantissa and the exponent that are read off the word of a finite number are its
parts (`parts_eq`).  A number is put together again from its sign and its magnitude
(`ofSign_abs`).
-/
import LikelihoodRatio.Decimal.Binary
import LikelihoodRatio.Proofs.Binary64.Arithmetic

namespace LikelihoodRatio.Binary64

open Float.Model Float.Model.UnpackedFloat

variable {x : Float}

/-- The word of a number. -/
def word (x : Float) : BitVec Format.binary64.numBits := x.toModel.toBits.toBitVec

lemma toNat_unpackMantissa (x : Float) :
    (unpackMantissa (word x) : BitVec 52).toNat = Binary.mantissaBits x :=
  BitVec.extractLsb_toNat 51 0 x.toModel.toBits.toBitVec

lemma toNat_unpackExponent (x : Float) :
    (unpackExponent (word x) : BitVec 11).toNat = Binary.exponentBits x := by
  refine (BitVec.extractLsb_toNat 62 52 x.toModel.toBits.toBitVec).trans ?_
  rw [Nat.shiftRight_eq_div_pow]
  rfl

/-- The sign of a number. -/
def signOf (x : Float) : Sign := if Binary.isNegative x then .negative else .positive

lemma unpackSign_eq (x : Float) : Sign.ofBitVec (unpackSign (word x)) = signOf x := by
  have hlt : x.toBits.toNat < 2 ^ 64 := x.toBits.toNat_lt
  have hbit : (unpackSign (word x) : BitVec 1).toNat = x.toBits.toNat / 2 ^ 63 % 2 := by
    refine (BitVec.extractLsb_toNat 63 63 x.toModel.toBits.toBitVec).trans ?_
    rw [Nat.shiftRight_eq_div_pow]
    rfl
  have hneg : Binary.isNegative x = true ↔ ¬(unpackSign (word x) : BitVec 1) = 0#1 := by
    rw [← BitVec.toNat_inj, hbit, Binary.isNegative, decide_eq_true_iff, Nat.pow_eq]
    have hzero : (0#1).toNat = 0 := rfl
    omega
  rw [signOf, Sign.ofBitVec]
  by_cases h : (unpackSign (word x) : BitVec 1) = 0#1
  · rw [if_pos h, if_neg fun hx => hneg.1 hx h]
  · rw [if_neg h, if_pos (hneg.2 h)]

lemma exponentBits_ne (hx : x.isFinite = true) : (unpackExponent (word x) : BitVec 11) ≠ -1#11 := by
  intro hspecial
  have hfinite : (UnpackedFloat.unpack .binary64 (word x)).isFinite = true := hx
  unfold UnpackedFloat.unpack at hfinite
  dsimp only at hfinite
  rw [if_pos hspecial] at hfinite
  split_ifs at hfinite
  · cases hfinite
  · cases hfinite

/-- A subnormal number has no leading bit. -/
lemma fields_of_subnormal (h : (unpackExponent (word x) : BitVec 11) = 0#11) :
    Binary.mantissa x = (unpackMantissa (word x) : BitVec 52).toNat ∧
      Binary.exponent x = -1074 := by
  have hbits : Binary.exponentBits x = 0 := by
    rw [← toNat_unpackExponent, h]
    rfl
  rw [Binary.mantissa, Binary.exponent, if_pos hbits, if_pos hbits, toNat_unpackMantissa]
  exact ⟨rfl, rfl⟩

/-- Any other finite number has a leading bit. -/
lemma fields_of_normal (h : (unpackExponent (word x) : BitVec 11) ≠ 0#11) :
    Binary.mantissa x = (1#1 ++ (unpackMantissa (word x) : BitVec 52)).toNat ∧
      Binary.exponent x = (Binary.exponentBits x : ℤ) - 1075 := by
  have hbits : Binary.exponentBits x ≠ 0 := by
    rw [← toNat_unpackExponent]
    exact fun hzero => h (BitVec.eq_of_toNat_eq hzero)
  rw [Binary.mantissa, Binary.exponent, if_neg hbits, if_neg hbits, toNat_append_one,
    toNat_unpackMantissa]
  exact ⟨rfl, rfl⟩

/-- The parts of a finite number, as they are read off its word. -/
theorem parts_eq (hx : x.isFinite = true) :
    parts x = if h : 0 < Binary.mantissa x then
      .finite (signOf x) (Binary.mantissa x) (Binary.exponent x) h else .zero (signOf x) := by
  have hexponent := toNat_unpackExponent x
  have hbias := exponentBias_eq
  change UnpackedFloat.unpack .binary64 (word x) = _
  unfold UnpackedFloat.unpack
  dsimp only
  rw [unpackSign_eq, if_neg (exponentBits_ne hx)]
  by_cases hsubnormal : (unpackExponent (word x) : BitVec 11) = 0#11
  · obtain ⟨hm, he⟩ := fields_of_subnormal hsubnormal
    rw [if_pos hsubnormal]
    by_cases hzero : (unpackMantissa (word x) : BitVec 52) = 0#52
    · rw [dif_pos hzero, dif_neg (by rw [hm, hzero]; decide)]
    · have hpos : 0 < Binary.mantissa x := by
        rw [hm, Nat.pos_iff_ne_zero]
        exact fun h => hzero (BitVec.eq_of_toNat_eq h)
      rw [dif_neg hzero, dif_pos hpos, finite.injEq, hm, he, hsubnormal, hbias]
      exact ⟨rfl, rfl, rfl⟩
  · obtain ⟨hm, he⟩ := fields_of_normal hsubnormal
    have hpos : 0 < Binary.mantissa x := by
      rw [hm, toNat_append_one]
      positivity
    rw [if_neg hsubnormal, dif_pos hpos, finite.injEq, hm, he]
    refine ⟨rfl, rfl, ?_⟩
    omega

/-! ### Sign and magnitude -/

lemma storable_magnitude (hx : x.isFinite = true) :
    Storable (if h : 0 < Binary.mantissa x then
      .finite .positive (Binary.mantissa x) (Binary.exponent x) h else .zero .positive) := by
  have hstorable := storable_parts_iff.2 hx
  rw [parts_eq hx] at hstorable
  split_ifs at hstorable ⊢
  · exact hstorable
  · trivial

lemma parts_abs (hx : x.isFinite = true) :
    parts x.abs = if h : 0 < Binary.mantissa x then
      .finite .positive (Binary.mantissa x) (Binary.exponent x) h else .zero .positive := by
  have habs : (parts x).abs = if h : 0 < Binary.mantissa x then
      .finite .positive (Binary.mantissa x) (Binary.exponent x) h else .zero .positive := by
    rw [parts_eq hx]
    split_ifs <;> rfl
  change (Float.Model.pack (parts x).abs).unpack = _
  rw [habs, Storable.unpack_pack (storable_magnitude hx)]

/-- The magnitude of a finite number. -/
theorem standsFor_abs (hx : x.isFinite = true) :
    StandsFor x.abs (Binary.mantissa x * 2 ^ Binary.exponent x) := by
  have hparts := parts_abs hx
  have hstorable : Storable (parts x.abs) := by
    rw [hparts]
    exact storable_magnitude hx
  refine ⟨storable_parts_iff.1 hstorable, ?_⟩
  rw [value, hparts]
  split_ifs with hpos
  · exact rational_positive hpos
  · rw [Nat.eq_zero_of_not_pos hpos, Nat.cast_zero, zero_mul]
    rfl

/-- A finite number is put together from its sign and its magnitude. -/
theorem ofSign_abs (hx : x.isFinite = true) :
    (if Binary.isNegative x then -x.abs else x.abs) = x := by
  refine eq_of_parts_eq ?_
  have hparts := parts_eq hx
  have habs := parts_abs hx
  rw [signOf] at hparts
  by_cases hneg : Binary.isNegative x = true
  · rw [if_pos hneg] at hparts ⊢
    rw [parts_neg, habs, hparts]
    split_ifs <;> rfl
  · rw [if_neg hneg] at hparts ⊢
    rw [habs, hparts]

end LikelihoodRatio.Binary64
