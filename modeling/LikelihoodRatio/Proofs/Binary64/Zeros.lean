/-
# The two zeros

Adding zero changes no number but negative zero (`add_posZero`).  A sum is negative zero only if its
first part is (`add_ne_negZero`): numbers that cancel leave positive zero, and no other sum is so
small that it is rounded to zero.  A running sum that starts at zero is therefore never negative
zero, whatever is added to it.
-/
import LikelihoodRatio.Proofs.Binary64.Sign

namespace LikelihoodRatio.Binary64

open Float.Model Float.Model.UnpackedFloat

variable {x : Float}

lemma parts_negZero : parts (-0.0) = .zero .negative := rfl

lemma eq_negZero_iff : x = -0.0 ↔ parts x = .zero .negative :=
  ⟨fun h => h ▸ parts_negZero, fun h => eq_of_parts_eq (h.trans parts_negZero.symm)⟩

lemma parts_add (x y : Float) :
    parts (x + y) = (Float.Model.pack (UnpackedFloat.add .binary64 (parts x) (parts y))).unpack :=
  rfl

/-- Packing the parts of a number loses none of them. -/
lemma unpack_pack_parts (x : Float) : (Float.Model.pack (parts x)).unpack = parts x := by
  cases h : parts x with
  | notANumber => rfl
  | infinity sign => exact unpack_infinity sign
  | zero sign => cases sign <;> rfl
  | finite sign m e hm => exact Storable.unpack_pack (a := .finite sign m e hm) (stored_of_unpack h)

/-- A whole number is not converted to negative zero. -/
lemma ofInt_ne_negZero (n : ℤ) : Float.ofInt n ≠ -0.0 := by
  intro h
  cases n with
  | ofNat n =>
    cases n with
    | zero => exact absurd h (by decide +kernel)
    | succ n =>
      have hpos : 0.0 < Float.ofNat (n + 1) := zero_lt_ofNat n.succ_pos
      rw [show Float.ofNat (n + 1) = -0.0 from h] at hpos
      exact absurd hpos (by decide +kernel)
  | negSucc n =>
    have hneg : -Float.ofNat (n + 1) < 0.0 := neg_lt_zero (zero_lt_ofNat n.succ_pos)
    rw [show -Float.ofNat (n + 1) = -0.0 from h] at hneg
    exact absurd hneg (by decide +kernel)

/-! ### Adding zero -/

/-- Negative zero is neutral for all numbers. -/
lemma negZero_add (x : Float) : -0.0 + x = x := by
  have hadd : UnpackedFloat.add .binary64 (.zero .negative) (parts x) = parts x := by
    cases parts x with
    | zero sign => cases sign <;> rfl
    | _ => rfl
  refine eq_of_parts_eq ?_
  rw [parts_add, parts_negZero, hadd, unpack_pack_parts]

lemma add_posZero (hx : x ≠ -0.0) : x + 0.0 = x := by
  rw [ne_eq, eq_negZero_iff] at hx
  have hadd : UnpackedFloat.add .binary64 (parts x) (.zero .positive) = parts x := by
    cases h : parts x with
    | zero sign =>
      cases sign with
      | negative => exact absurd h hx
      | positive => rfl
    | _ => rfl
  refine eq_of_parts_eq ?_
  rw [parts_add, parts_zero, hadd, unpack_pack_parts]

lemma posZero_add (hx : x ≠ -0.0) : 0.0 + x = x := by
  have hcomm : UnpackedFloat.add .binary64 (.zero .positive) (parts x) =
      UnpackedFloat.add .binary64 (parts x) (.zero .positive) := by
    cases parts x with
    | zero sign => cases sign <;> rfl
    | _ => rfl
  refine Eq.trans (eq_of_parts_eq ?_) (add_posZero hx)
  rw [parts_add, parts_add, parts_zero, hcomm]

/-! ### Sums that are zero -/

/-- A multiple of the smallest positive number is zero or at least as large. -/
lemma two_zpow_le_abs {n e : ℤ} (hn : n ≠ 0) (he : -1074 ≤ e) :
    2 ^ (-1074 : ℤ) ≤ |(n : ℚ) * 2 ^ e| := by
  have hone : (1 : ℚ) ≤ |(n : ℚ)| := by exact_mod_cast Int.one_le_abs hn
  have hpos : (0 : ℚ) < 2 ^ e := zpow_pos two_pos e
  calc (2 : ℚ) ^ (-1074 : ℤ)
      ≤ 2 ^ e := zpow_le_zpow_right₀ one_le_two he
    _ ≤ |(n : ℚ)| * 2 ^ e := le_mul_of_one_le_left hpos.le hone
    _ = |(n : ℚ) * 2 ^ e| := by rw [abs_mul, abs_of_pos hpos]

/-- What is at least as large as the smallest positive number is not rounded to zero. -/
lemma RoundsTo.ne_zero {a : UnpackedFloat} {q : ℚ} (h : RoundsTo q a)
    (hq : 2 ^ (-1074 : ℤ) ≤ |q|) (sign : Sign) : a ≠ .zero sign := by
  rintro rfl
  have hpos : (0 : ℚ) < 2 ^ (-1074 : ℤ) := zpow_pos two_pos _
  have hsmall : Representable (2 ^ (-1074 : ℤ)) := representable_two_zpow le_rfl
  rcases h with ⟨-, hnear⟩ | ⟨sign', hinf, -⟩
  · change Nearest q 0 at hnear
    rcases le_abs.1 hq with hle | hle
    · exact hpos.not_ge (hnear.ge_of_ge hsmall hle)
    · have hneg := hnear.le_of_le hsmall.neg (le_neg_of_le_neg hle)
      linarith
  · cases hinf

lemma unpack_pack_posZero : (Float.Model.pack (.zero .positive)).unpack = .zero .positive := rfl

lemma normalize_ne_negZero (n : ℤ) {e : ℤ} (he : -1074 ≤ e) :
    (Float.Model.pack (UnpackedFloat.normalize .binary64 n e .positive)).unpack ≠
      .zero .negative := by
  rcases eq_or_ne n 0 with rfl | hn
  · change (Float.Model.pack (.zero .positive)).unpack ≠ _
    rw [unpack_pack_posZero]
    simp
  · exact (roundsTo_normalize n e).ne_zero (two_zpow_le_abs hn he) .negative

/-- A sum is negative zero only if its first part is. -/
theorem add_ne_negZero (hx : x ≠ -0.0) (y : Float) : x + y ≠ -0.0 := by
  have hnan : (Float.Model.pack .notANumber).unpack = .notANumber := rfl
  have hinf (s : Sign) : (Float.Model.pack (.infinity s)).unpack = .infinity s := unpack_infinity s
  rw [ne_eq, eq_negZero_iff] at hx ⊢
  rw [parts_add]
  cases hpx : parts x with
  | notANumber => simp [UnpackedFloat.add, hnan]
  | infinity s =>
    cases parts y with
    | infinity s' =>
      rw [UnpackedFloat.add]
      split_ifs
      · simp [hinf]
      · simp [hnan]
    | _ => simp [UnpackedFloat.add, hnan, hinf]
  | zero s =>
    cases hpy : parts y with
    | notANumber => simp [UnpackedFloat.add, hnan]
    | infinity s' => simp [UnpackedFloat.add, hinf]
    | zero s' =>
      have hs : s = .positive := by
        cases s with
        | negative => exact absurd hpx hx
        | positive => rfl
      have hadd : UnpackedFloat.add .binary64 (.zero s) (.zero s') = .zero .positive := by
        rw [hs]
        cases s' <;> rfl
      rw [hadd, unpack_pack_posZero]
      simp
    | finite s' m' e' hm' =>
      have hadd : UnpackedFloat.add .binary64 (.zero s) (.finite s' m' e' hm') = parts y := hpy.symm
      rw [hadd, unpack_pack_parts, hpy]
      simp
  | finite s m e hm =>
    cases hpy : parts y with
    | notANumber => simp [UnpackedFloat.add, hnan]
    | infinity s' => simp [UnpackedFloat.add, hinf]
    | zero s' =>
      have hadd : UnpackedFloat.add .binary64 (.finite s m e hm) (.zero s') = parts x := hpx.symm
      rw [hadd, unpack_pack_parts, hpx]
      simp
    | finite s' m' e' hm' =>
      obtain ⟨hstored, -⟩ : Stored m e ∧ e ≤ 971 := stored_of_unpack hpx
      obtain ⟨hstored', -⟩ : Stored m' e' ∧ e' ≤ 971 := stored_of_unpack hpy
      exact normalize_ne_negZero _ (le_min hstored.le_exponent hstored'.le_exponent)

end LikelihoodRatio.Binary64
