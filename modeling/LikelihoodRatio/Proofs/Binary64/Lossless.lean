/-
# Results that are not rounded

A result that can be held is the exact one: sums, products and quotients are rounded only if they
have to be (`StandsFor.add`, `StandsFor.mul`, `StandsFor.div`).  Whole numbers of 53 bits can be
held, so that counts are added exactly as long as their sum stays in that range.
-/
import LikelihoodRatio.Proofs.Binary64.Bounds
import LikelihoodRatio.Proofs.Binary64.Doubling

namespace LikelihoodRatio.Binary64

open Float.Model Float.Model.UnpackedFloat

variable {x y : Float} {p q r : ℚ} {m n : ℤ}

/-- A number other than zero is held in one way only. -/
lemma StandsFor.eq (hx : StandsFor x q) (hy : StandsFor y q) (hq : q ≠ 0) : x = y :=
  eq_of_value_eq hx.isFinite hy.isFinite (hx.value_eq.trans hy.value_eq.symm) (hx.value_eq ▸ hq)

namespace StandsFor

lemma add (hx : StandsFor x p) (hy : StandsFor y q) (hr : p + q = r) (h : Representable r)
    (hsafe : |r| ≤ safe) : StandsFor (x + y) r := by
  have hround := roundsTo_add hx.isFinite hy.isFinite
  rw [hx.value_eq, hy.value_eq, hr] at hround
  exact hround.standsFor h hsafe

lemma mul (hx : StandsFor x p) (hy : StandsFor y q) (hr : p * q = r) (h : Representable r)
    (hsafe : |r| ≤ safe) : StandsFor (x * y) r := by
  have hround := roundsTo_mul hx.isFinite hy.isFinite
  rw [hx.value_eq, hy.value_eq, hr] at hround
  exact hround.standsFor h hsafe

lemma div (hx : StandsFor x p) (hy : StandsFor y q) (hq : q ≠ 0) (hr : p / q = r)
    (h : Representable r) (hsafe : |r| ≤ safe) : StandsFor (x / y) r := by
  have hround := roundsTo_div hx.isFinite hy.isFinite (hy.value_eq ▸ hq)
  rw [hx.value_eq, hy.value_eq, hr] at hround
  exact hround.standsFor h hsafe

end StandsFor

/-! ### Whole numbers -/

lemma abs_intCast_le_safe (hn : |n| ≤ 2 ^ 53) : |(n : ℚ)| ≤ safe := by
  have hn' : |(n : ℚ)| ≤ 2 ^ (53 : ℤ) := by exact_mod_cast hn
  exact hn'.trans (two_zpow_le_safe (by norm_num))

/-- A whole number of 53 bits is converted without loss. -/
lemma standsFor_ofInt (hn : |n| ≤ 2 ^ 53) : StandsFor (Float.ofInt n) n :=
  (roundsTo_ofInt n).standsFor (representable_intCast hn) (abs_intCast_le_safe hn)

lemma standsFor_zero : StandsFor 0.0 (0 : ℤ) := ⟨rfl, by rw [value_zero, Int.cast_zero]⟩

lemma standsFor_one : StandsFor 1.0 (1 : ℤ) := by
  have hone : Float.ofInt 1 = 1.0 := by decide +kernel
  exact hone ▸ standsFor_ofInt (by norm_num)

/-- Whole numbers are added without loss as long as the sum has 53 bits. -/
lemma StandsFor.add_intCast (hx : StandsFor x m) (hy : StandsFor y n) (h : |m + n| ≤ 2 ^ 53) :
    StandsFor (x + y) (m + n : ℤ) :=
  hx.add hy (Int.cast_add m n).symm (representable_intCast h) (abs_intCast_le_safe h)

/-- A number divided by itself is one. -/
lemma StandsFor.div_eq_one (hx : StandsFor x q) (hy : StandsFor y q) (hq : q ≠ 0) :
    x / y = 1.0 := by
  have hone : q / q = (1 : ℤ) := by rw [div_self hq, Int.cast_one]
  have h := hx.div hy hq hone (representable_intCast (by norm_num))
    (abs_intCast_le_safe (by norm_num))
  exact h.eq standsFor_one (by norm_num)

/-- A positive number times zero is zero, and not its negative. -/
lemma mul_zero_of_pos (hx : x.isFinite = true) (hpos : 0.0 < x) : x * 0.0 = 0.0 := by
  obtain ⟨m, e, hm, hparts⟩ := exists_parts_of_pos hx hpos
  refine eq_of_parts_eq ?_
  change (Float.Model.pack (UnpackedFloat.mul .binary64 (parts x) (parts 0.0))).unpack = _
  rw [hparts, parts_zero]
  exact Storable.unpack_pack (show Storable (.zero .positive) from trivial)

end LikelihoodRatio.Binary64
