/-
# Stored numbers

A finite number is packed into a word and unpacked again without a change if it is as results of
rounding are (`unpack_pack`), except that a number beyond the largest one becomes infinite.  What is
unpacked from a word is of that kind (`stored_of_unpack`).
-/
import LikelihoodRatio.Proofs.Binary64.Rounding
import Mathlib

namespace LikelihoodRatio.Binary64

open Float.Model Float.Model.UnpackedFloat

lemma toNat_append_one (b : BitVec 52) : (1#1 ++ b).toNat = 2 ^ 52 + b.toNat := by
  rw [BitVec.toNat_append, ← Nat.shiftLeft_add_eq_or_of_lt b.isLt, Nat.shiftLeft_eq]
  simp

lemma exponentBias_eq : Format.binary64.exponentBias = 1023 := by decide

/-! ### The fields of a word -/

lemma unpack_infinity (sign : Sign) :
    UnpackedFloat.unpack .binary64 (packedInfinity .binary64 sign) = .infinity sign := by
  simp [UnpackedFloat.unpack, packedInfinity]

lemma unpack_subnormal (sign : Sign) {f : BitVec 52} (hf : 0 < f.toNat) :
    UnpackedFloat.unpack .binary64 (packComponents .binary64 sign 0#11 f) =
      .finite sign f.toNat (-1074) hf := by
  have hzero : f ≠ 0#52 := fun h => hf.ne' (congrArg BitVec.toNat h)
  unfold UnpackedFloat.unpack
  simp only [unpackExponent_packComponents, unpackMantissa_packComponents,
    unpackSign_packComponents, Sign.ofBitVec_toBitVec, exponentBias_eq, if_true]
  rw [if_neg (by decide), dif_neg hzero]
  rfl

lemma unpack_normal (sign : Sign) {x : BitVec 11} (hx : x.toNat ≠ 0) (hx' : x.toNat ≠ 2047)
    (f : BitVec 52) (hm : 0 < 2 ^ 52 + f.toNat) :
    UnpackedFloat.unpack .binary64 (packComponents .binary64 sign x f) =
      .finite sign (2 ^ 52 + f.toNat) (x.toNat - 1075) hm := by
  have hspecial : x ≠ -1#11 := fun h => hx' (congrArg BitVec.toNat h)
  have hsubnormal : x ≠ 0#11 := fun h => hx (congrArg BitVec.toNat h)
  unfold UnpackedFloat.unpack
  simp only [unpackExponent_packComponents, unpackMantissa_packComponents,
    unpackSign_packComponents, Sign.ofBitVec_toBitVec, toNat_append_one, exponentBias_eq]
  rw [if_neg hspecial, if_neg hsubnormal]
  congr 1

/-- What a word holds. -/
lemma stored_of_unpack {b : BitVec Format.binary64.numBits} {sign : Sign} {m : Nat} {e : Int}
    {hm : 0 < m} (h : UnpackedFloat.unpack .binary64 b = .finite sign m e hm) :
    Stored m e ∧ e ≤ 971 := by
  have hbias := exponentBias_eq
  have hmantissa : (unpackMantissa b : BitVec 52).toNat < 2 ^ 52 := (unpackMantissa b).isLt
  have hexponent : (unpackExponent b : BitVec 11).toNat < 2048 := (unpackExponent b).isLt
  unfold UnpackedFloat.unpack at h
  dsimp only at h
  split_ifs at h with hspecial _ hsubnormal _
  · rw [finite.injEq] at h
    obtain ⟨-, rfl, rfl⟩ := h
    have hzero : (unpackExponent b : BitVec 11).toNat = 0 := by
      rw [hsubnormal]
      rfl
    refine ⟨⟨by omega, ?_, .inr ?_⟩, ?_⟩ <;> omega
  · rw [finite.injEq] at h
    obtain ⟨-, rfl, rfl⟩ := h
    have hne : (unpackExponent b : BitVec 11).toNat ≠ 2047 := fun heq =>
      hspecial (BitVec.eq_of_toNat_eq heq)
    have hpos : (unpackExponent b : BitVec 11).toNat ≠ 0 := fun heq =>
      hsubnormal (BitVec.eq_of_toNat_eq heq)
    have happend : (1#1 ++ (unpackMantissa b : BitVec 52)).toNat =
        2 ^ 52 + (unpackMantissa b : BitVec 52).toNat := toNat_append_one _
    refine ⟨⟨?_, ?_, .inl ?_⟩, ?_⟩ <;> omega

/-! ### Stored numbers -/

lemma pack_finite (sign : Sign) {m : Nat} {e : Int} (hm : 0 < m) :
    UnpackedFloat.pack .binary64 (.finite sign m e hm) =
      if 2048 ≤ (e + 1075).toNat + 1 then packedInfinity .binary64 sign
      else if m.log2 + 1 = 53 then
        packComponents .binary64 sign (BitVec.ofNat 11 (e + 1075).toNat) (BitVec.ofNat 52 m)
      else packComponents .binary64 sign 0#11 (BitVec.ofNat 52 m) := by
  have hbiased : (e + (1023 : Nat) + (52 : Nat)).toNat = (e + 1075).toNat := by omega
  rw [← hbiased]
  rfl

/-- A stored number is packed without loss, or is too large. -/
lemma unpack_pack (sign : Sign) {m : Nat} {e : Int} (hm : 0 < m) (h : Stored m e) :
    (Float.Model.pack (.finite sign m e hm)).unpack =
      if 971 < e then .infinity sign else .finite sign m e hm := by
  obtain ⟨hlt, hmin, hfull⟩ := h
  change UnpackedFloat.unpack .binary64 (UnpackedFloat.pack .binary64 (.finite sign m e hm)) = _
  rw [pack_finite]
  by_cases hover : 971 < e
  · rw [if_pos hover, if_pos (by omega), unpack_infinity]
  rw [if_neg hover, if_neg (by omega)]
  by_cases hnormal : 2 ^ 52 ≤ m
  · have hlog : m.log2 = 52 := (Nat.log2_eq_iff hm.ne').2 ⟨hnormal, hlt⟩
    have hexponent : (BitVec.ofNat 11 (e + 1075).toNat).toNat = (e + 1075).toNat :=
      Nat.mod_eq_of_lt (by omega)
    have hmantissa : 2 ^ 52 + (BitVec.ofNat 52 m).toNat = m := by
      rw [BitVec.toNat_ofNat]
      omega
    rw [if_pos (by omega), unpack_normal sign (by omega) (by omega) _ (by omega)]
    simp only [hexponent, hmantissa]
    congr 1
    omega
  · have hlog : m.log2 < 52 := (Nat.log2_lt hm.ne').2 (by omega)
    have hmantissa : (BitVec.ofNat 52 m).toNat = m := Nat.mod_eq_of_lt (by omega)
    rw [if_neg (by omega), unpack_subnormal sign (by omega)]
    simp only [hmantissa]
    congr 1
    omega

end LikelihoodRatio.Binary64
