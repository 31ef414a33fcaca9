/-
# The operations on binary64 numbers

Sums, differences, products and quotients of finite numbers are rounded to the nearest number
(`roundsTo_add`, `roundsTo_sub`, `roundsTo_mul`, `roundsTo_div`), and a result that can be held is
the exact one (`RoundsTo.standsFor`).  The root of a positive number is never too large or too small
(`isFinite_sqrt`, `sqrt_pos`).
-/
import LikelihoodRatio.Proofs.Binary64.Nearest

namespace LikelihoodRatio.Binary64

open Float.Model Float.Model.UnpackedFloat

variable {a b : UnpackedFloat} {x y : Float} {q : ℚ}

/-! ### Results -/

/-- What a finite number can hold is not rounded. -/
lemma Storable.roundsTo (ha : Storable a) : RoundsTo (rational a) (Float.Model.pack a).unpack := by
  rw [ha.unpack_pack]
  refine .inl ⟨ha, ha.representable, fun b _ => ?_⟩
  rw [sub_self, abs_zero]
  exact abs_nonneg _

lemma roundsTo_zero (sign : Sign) : RoundsTo 0 (Float.Model.pack (.zero sign)).unpack :=
  Storable.roundsTo (a := .zero sign) trivial

lemma RoundsTo.neg (h : RoundsTo q a) : RoundsTo (-q) a.neg := by
  rcases h with ⟨ha, hnear⟩ | ⟨sign, rfl, hlarge⟩
  · refine .inl ⟨ha.neg, ?_⟩
    rw [rational_neg]
    exact hnear.neg
  · refine .inr ⟨-sign, rfl, ?_⟩
    rwa [neg_apply, Int.cast_neg, neg_mul_neg]

/-- A result that is not too large is a finite number. -/
lemma RoundsTo.isFinite {z : Float} (h : RoundsTo q (parts z)) (hq : |q| ≤ safe) :
    z.isFinite = true ∧ Nearest q (value z) := by
  rcases h with ⟨hz, hnear⟩ | ⟨sign, -, hlarge⟩
  · exact ⟨storable_parts_iff.1 hz, hnear⟩
  · obtain ⟨hlow, hhigh⟩ := abs_le.1 hq
    cases sign <;> simp only [Sign.apply, Int.cast_neg, Int.cast_one] at hlarge <;> linarith

lemma RoundsTo.nearest {z : Float} (h : RoundsTo q (parts z)) (hz : z.isFinite = true) :
    Nearest q (value z) := by
  rcases h with ⟨-, hnear⟩ | ⟨sign, hinf, -⟩
  · exact hnear
  · exact absurd hinf (parts_ne_infinity hz)

/-- A finite number that stands for a given rational number. -/
structure StandsFor (x : Float) (q : ℚ) : Prop where
  isFinite : x.isFinite = true
  value_eq : value x = q

lemma RoundsTo.standsFor {z : Float} (h : RoundsTo q (parts z)) (hq : Representable q)
    (hsafe : |q| ≤ safe) : StandsFor z q := by
  obtain ⟨hz, hnear⟩ := h.isFinite hsafe
  exact ⟨hz, hnear.eq_of_representable hq⟩

/-- A result that is at least a positive number is positive, and may be infinite. -/
lemma RoundsTo.pos_of_le {z : Float} {b : ℚ} (h : RoundsTo q (parts z)) (hb : Representable b)
    (hpos : 0 < b) (hle : b ≤ q) : 0.0 < z := by
  rcases h with ⟨hz, hnear⟩ | ⟨sign, hinf, hlarge⟩
  · exact (pos_iff_value (storable_parts_iff.1 hz)).2 (hpos.trans_le (hnear.ge_of_ge hb hle))
  · refine zero_lt_iff.2 (.inl ?_)
    have hsafe := safe_pos
    cases sign with
    | negative =>
      simp only [Sign.apply, Int.cast_neg, Int.cast_one, neg_one_mul] at hlarge
      linarith
    | positive => exact hinf

/-! ### Sums -/

lemma roundsTo_round (sign : Sign) {m : ℕ} (hm : 0 < m) (e : ℤ) :
    RoundsTo (sign.apply 1 * (m * 2 ^ e))
      (Float.Model.pack (UnpackedFloat.round .binary64 sign m e)).unpack := by
  set k := (e - Format.binary64.targetExponent (totalExponent m e)).toNat with hk
  have htarget : Format.binary64.targetExponent (totalExponent m e) =
      max ((m.log2 : Int) + 1 + e - (53 : Nat)) (-1074) := rfl
  have hlong : 52 ≤ (m <<< k).log2 ∨ e - k ≤ -1074 := by
    by_cases hmin : e - k ≤ -1074
    · exact .inr hmin
    · have hlow := Nat.log2_self_le hm.ne'
      have hpow : 2 ^ 52 ≤ 2 ^ m.log2 * 2 ^ k := by
        rw [← pow_add]
        exact Nat.pow_le_pow_right two_pos (by omega)
      rw [Nat.shiftLeft_eq]
      exact .inl ((Nat.le_log2 (by positivity)).2 (hpow.trans (Nat.mul_le_mul_right _ hlow)))
  have hround := roundsTo_roundWithAccuracy sign
    (show Located (m <<< k) .exact (m <<< k : ℕ) from rfl) hlong
  have hvalue : ((m <<< k : ℕ) : ℚ) * 2 ^ (e - k) = m * 2 ^ e := by
    rw [Nat.shiftLeft_eq, zpow_sub₀ two_ne_zero, zpow_natCast]
    push_cast
    field_simp
  rw [hvalue] at hround
  exact hround

lemma roundsTo_normalize (n e : ℤ) :
    RoundsTo (n * 2 ^ e)
      (Float.Model.pack (UnpackedFloat.normalize .binary64 n e .positive)).unpack := by
  rcases lt_trichotomy n 0 with hneg | rfl | hpos
  · obtain ⟨m, rfl⟩ : ∃ m : ℕ, n = -m := ⟨n.natAbs, by omega⟩
    have hround := roundsTo_round .negative (by omega : 0 < m) e
    rw [UnpackedFloat.normalize, compare_lt_iff_lt.2 hneg]
    simpa [Sign.apply] using hround
  · rw [Int.cast_zero, zero_mul]
    exact roundsTo_zero .positive
  · obtain ⟨m, rfl⟩ : ∃ m : ℕ, n = m := ⟨n.natAbs, by omega⟩
    have hround := roundsTo_round .positive (by omega : 0 < m) e
    rw [UnpackedFloat.normalize, compare_gt_iff_gt.2 hpos]
    simpa [Sign.apply] using hround

/-- Shifting a mantissa to a smaller exponent leaves the number as it is. -/
lemma apply_shiftLeft (sign : Sign) (m : ℕ) {e e' : ℤ} (h : e' ≤ e) :
    (sign.apply (m <<< (e - e').toNat : ℕ) : ℚ) * 2 ^ e' = sign.apply m * 2 ^ e := by
  have hsub : ((e - e').toNat : ℤ) = e - e' := by omega
  have hpow : (2 : ℚ) ^ (e - e').toNat * 2 ^ e' = 2 ^ e := by
    rw [← zpow_natCast, hsub, ← zpow_add₀ two_ne_zero, sub_add_cancel]
  rw [Nat.shiftLeft_eq, ← hpow]
  cases sign <;> simp only [Sign.apply] <;> push_cast <;> ring

lemma roundsTo_unpackedAdd (ha : Storable a) (hb : Storable b) :
    RoundsTo (rational a + rational b)
      (Float.Model.pack (UnpackedFloat.add .binary64 a b)).unpack := by
  cases a, ha using Storable.cases with
  | zero s =>
    rw [show rational (.zero s) = 0 from rfl, zero_add]
    cases b, hb using Storable.cases with
    | zero s' => cases s <;> cases s' <;> exact roundsTo_zero _
    | finite s' m' e' h' hb => exact Storable.roundsTo (a := .finite s' m' e' h') hb
  | finite s m e h ha =>
    cases b, hb using Storable.cases with
    | zero s' =>
      rw [show rational (.zero s') = 0 from rfl, add_zero]
      exact Storable.roundsTo (a := .finite s m e h) ha
    | finite s' m' e' h' hb =>
      have hround := roundsTo_normalize
        (s.apply (m <<< (e - min e e').toNat : ℕ) + s'.apply (m' <<< (e' - min e e').toNat : ℕ))
        (min e e')
      rw [Int.cast_add, add_mul, apply_shiftLeft s m (min_le_left e e'),
        apply_shiftLeft s' m' (min_le_right e e')] at hround
      exact hround

/-- A difference is the sum with the negated number. -/
lemma unpackedSub_eq (a b : UnpackedFloat) :
    UnpackedFloat.sub .binary64 a b = UnpackedFloat.add .binary64 a b.neg := by
  cases a with
  | notANumber => rfl
  | infinity s => cases b <;> rfl
  | zero s => cases b <;> rfl
  | finite s m e h =>
    cases b with
    | finite s' m' e' h' =>
      simp only [UnpackedFloat.sub, UnpackedFloat.add, UnpackedFloat.neg, neg_apply,
        sub_eq_add_neg]
    | _ => rfl

theorem roundsTo_add (hx : x.isFinite = true) (hy : y.isFinite = true) :
    RoundsTo (value x + value y) (parts (x + y)) :=
  roundsTo_unpackedAdd (storable_parts_iff.2 hx) (storable_parts_iff.2 hy)

theorem roundsTo_sub (hx : x.isFinite = true) (hy : y.isFinite = true) :
    RoundsTo (value x - value y) (parts (x - y)) := by
  change RoundsTo _ (Float.Model.pack (UnpackedFloat.sub .binary64 (parts x) (parts y))).unpack
  rw [unpackedSub_eq, sub_eq_add_neg, value, value, ← rational_neg]
  exact roundsTo_unpackedAdd (storable_parts_iff.2 hx) (storable_parts_iff.2 hy).neg

lemma parts_neg (x : Float) : parts (-x) = (parts x).neg := by
  change (Float.Model.pack (parts x).neg).unpack = _
  cases h : parts x with
  | notANumber => rfl
  | infinity sign => exact unpack_infinity (-sign)
  | zero sign => exact Storable.unpack_pack (show Storable (.zero (-sign)) from trivial)
  | finite sign m e hm =>
    have hstorable : Storable (.finite sign m e hm) := stored_of_unpack h
    exact hstorable.neg.unpack_pack

lemma isFinite_neg (hx : x.isFinite = true) : (-x).isFinite = true := by
  rw [← storable_parts_iff, parts_neg]
  exact (storable_parts_iff.2 hx).neg

/-! ### Products -/

lemma apply_mul (s s' : Sign) : (s * s').apply 1 = s.apply 1 * s'.apply 1 := by
  cases s <;> cases s' <;> rfl

/-- A product has bits enough for a mantissa if one of the factors has. -/
lemma Stored.log2_mul {m m' : ℕ} {e e' : ℤ} (hm : Stored m e) (hpos : 0 < m) (hm' : Stored m' e')
    (hpos' : 0 < m') : 52 ≤ (m * m').log2 ∨ e + e' ≤ -1074 := by
  rw [Nat.le_log2 (Nat.mul_pos hpos hpos').ne']
  rcases hm.full with hfull | he
  · exact .inl (hfull.trans (Nat.le_mul_of_pos_right m hpos'))
  · rcases hm'.full with hfull' | he'
    · exact .inl (hfull'.trans (Nat.le_mul_of_pos_left m' hpos))
    · omega

lemma roundsTo_unpackedMul (ha : Storable a) (hb : Storable b) :
    RoundsTo (rational a * rational b)
      (Float.Model.pack (UnpackedFloat.mul .binary64 a b)).unpack := by
  cases a, ha using Storable.cases with
  | zero s =>
    rw [show rational (.zero s) = 0 from rfl, zero_mul]
    cases b, hb using Storable.cases with
    | zero s' => exact roundsTo_zero _
    | finite s' m' e' h' hb => exact roundsTo_zero _
  | finite s m e h ha =>
    cases b, hb using Storable.cases with
    | zero s' =>
      rw [show rational (.zero s') = 0 from rfl, mul_zero]
      exact roundsTo_zero _
    | finite s' m' e' h' hb =>
      have hlong := ha.1.log2_mul h hb.1 h'
      have hround := roundsTo_roundWithAccuracy (s * s')
        (show Located (m * m') .exact (m * m' : ℕ) from rfl) hlong
      have hvalue : rational (.finite s m e h) * rational (.finite s' m' e' h') =
          (s * s').apply 1 * ((m * m' : ℕ) * 2 ^ (e + e')) := by
        rw [rational_finite, rational_finite, apply_mul, Int.cast_mul, zpow_add₀ two_ne_zero]
        push_cast
        ring
      rw [hvalue]
      exact hround

theorem roundsTo_mul (hx : x.isFinite = true) (hy : y.isFinite = true) :
    RoundsTo (value x * value y) (parts (x * y)) :=
  roundsTo_unpackedMul (storable_parts_iff.2 hx) (storable_parts_iff.2 hy)

/-! ### Quotients -/

/-- The remainder of a division tells where the quotient lies. -/
lemma located_div (m : ℕ) {n : ℕ} (hn : 0 < n) :
    Located (m / n) (accuracyOfFraction (m % n) n) (m / n) := by
  have hn' : (0 : ℚ) < n := by exact_mod_cast hn
  have hdiv : (m : ℚ) / n = (m / n : ℕ) + (m % n : ℕ) / n := by
    have hsplit : (m : ℚ) = n * (m / n : ℕ) + (m % n : ℕ) := by
      exact_mod_cast (Nat.div_add_mod m n).symm
    field_simp
    linarith
  have hlt : ((m % n : ℕ) : ℚ) / n < 1 := by
    rw [div_lt_one hn']
    exact_mod_cast Nat.mod_lt m hn
  rw [hdiv, accuracyOfFraction]
  split_ifs with hzero
  · rw [hzero, Nat.cast_zero, zero_div, add_zero]
    rfl
  · have hpos : 0 < ((m % n : ℕ) : ℚ) / n := by
      have : 0 < m % n := Nat.pos_of_ne_zero hzero
      positivity
    -- Twice the remainder is compared with the divisor.
    rcases lt_trichotomy (2 * (m % n)) n with hlow | heq | hhigh
    · have hhalf : ((m % n : ℕ) : ℚ) / n < 1 / 2 := by
        have hlow' : (2 : ℚ) * (m % n : ℕ) < n := by exact_mod_cast hlow
        rw [div_lt_iff₀ hn']
        linarith
      rw [compare_lt_iff_lt.2 hlow]
      exact ⟨by linarith, by linarith⟩
    · have hhalf : ((m % n : ℕ) : ℚ) / n = 1 / 2 := by
        have heq' : (2 : ℚ) * (m % n : ℕ) = n := by exact_mod_cast heq
        rw [div_eq_iff hn'.ne']
        linarith
      rw [compare_eq_iff_eq.2 heq, hhalf]
      rfl
    · have hhalf : 1 / 2 < ((m % n : ℕ) : ℚ) / n := by
        have hhigh' : (n : ℚ) < 2 * (m % n : ℕ) := by exact_mod_cast hhigh
        rw [lt_div_iff₀ hn']
        linarith
      rw [compare_gt_iff_gt.2 hhigh]
      exact ⟨by linarith, by linarith⟩

/-- The exponent of a quotient before it is rounded. -/
def quotientExponent (m : ℕ) (e : ℤ) (m' : ℕ) (e' : ℤ) : ℤ :=
  min (e - e') (Format.binary64.targetExponent (totalExponent m e - totalExponent m' e'))

lemma roundsTo_divCore (sign : Sign) {m m' : ℕ} (hpos : 0 < m) (hpos' : 0 < m') (e e' : ℤ) :
    RoundsTo (sign.apply 1 * (m * 2 ^ e / (m' * 2 ^ e')))
      (Float.Model.pack (roundWithAccuracy .binary64 sign (divCore .binary64 m e m' e').1
        (divCore .binary64 m e m' e').2.1 (divCore .binary64 m e m' e').2.2)).unpack := by
  set t := quotientExponent m e m' e' with ht
  set k := (e - e' - t).toNat with hk
  have htarget : t = min (e - e')
    (max ((m.log2 : ℤ) + 1 + e - (m'.log2 + 1 + e') - (53 : Nat)) (-1074)) := rfl
  have hlong : 52 ≤ (m <<< k / m').log2 ∨ t ≤ -1074 := by
    by_cases hmin : t ≤ -1074
    · exact .inr hmin
    · have hle : 2 ^ 52 ≤ m <<< k / m' := by
        rw [Nat.shiftLeft_eq, Nat.le_div_iff_mul_le hpos']
        calc 2 ^ 52 * m'
            ≤ 2 ^ 52 * 2 ^ (m'.log2 + 1) := Nat.mul_le_mul_left _ Nat.lt_log2_self.le
          _ = 2 ^ (m'.log2 + 53) := by rw [← pow_add]; congr 1; omega
          _ ≤ 2 ^ (m.log2 + k) := Nat.pow_le_pow_right two_pos (by omega)
          _ = 2 ^ m.log2 * 2 ^ k := pow_add 2 _ _
          _ ≤ m * 2 ^ k := Nat.mul_le_mul_right _ (Nat.log2_self_le hpos.ne')
      exact .inl ((Nat.le_log2 (by omega)).2 hle)
  have hround := roundsTo_roundWithAccuracy sign (located_div (m <<< k) hpos') hlong
  have hvalue : ((m <<< k : ℕ) : ℚ) / m' * 2 ^ t = m * 2 ^ e / (m' * 2 ^ e') := by
    have hexp : e - e' = k + t := by omega
    have hpow : (2 : ℚ) ^ e = 2 ^ k * 2 ^ t * 2 ^ e' := by
      rw [← zpow_natCast, ← zpow_add₀ two_ne_zero, ← zpow_add₀ two_ne_zero, ← hexp, sub_add_cancel]
    rw [Nat.shiftLeft_eq, hpow]
    push_cast
    field_simp
  rw [hvalue] at hround
  exact hround

lemma apply_div (s s' : Sign) : (s / s').apply 1 = s.apply 1 * s'.apply 1 := by
  cases s <;> cases s' <;> rfl

lemma roundsTo_unpackedDiv (ha : Storable a) (hb : Storable b) (hne : rational b ≠ 0) :
    RoundsTo (rational a / rational b)
      (Float.Model.pack (UnpackedFloat.div .binary64 a b)).unpack := by
  cases b, hb using Storable.cases with
  | zero s' => exact absurd rfl hne
  | finite s' m' e' h' hb =>
    cases a, ha using Storable.cases with
    | zero s =>
      rw [show rational (.zero s) = 0 from rfl, zero_div]
      exact roundsTo_zero _
    | finite s m e h ha =>
      have hround := roundsTo_divCore (s / s') h h' e e'
      have hvalue : rational (.finite s m e h) / rational (.finite s' m' e' h') =
          (s / s').apply 1 * (m * 2 ^ e / (m' * 2 ^ e')) := by
        rw [rational_finite, rational_finite, apply_div, Int.cast_mul, mul_div_mul_comm,
          div_eq_mul_inv (s.apply 1 : ℚ), inv_eq_of_mul_eq_one_left (apply_mul_apply s')]
      rw [hvalue]
      exact hround

theorem roundsTo_div (hx : x.isFinite = true) (hy : y.isFinite = true) (hne : value y ≠ 0) :
    RoundsTo (value x / value y) (parts (x / y)) :=
  roundsTo_unpackedDiv (storable_parts_iff.2 hx) (storable_parts_iff.2 hy) hne

/-! ### Roots -/

/-- The root of a whole number lies between two others, and nearer to one of them. -/
lemma exists_located_sqrt (m : ℕ) : ∃ v : ℚ, Located m.sqrt
    (if m - m.sqrt * m.sqrt = 0 then .exact
      else .inexact (if m - m.sqrt * m.sqrt ≤ m.sqrt then .lt else .gt)) v := by
  split_ifs
  · exact ⟨m.sqrt, rfl⟩
  · exact ⟨m.sqrt + 1 / 4, by constructor <;> linarith⟩
  · exact ⟨m.sqrt + 3 / 4, by constructor <;> linarith⟩

lemma exists_roundsTo_sqrtCore {m : ℕ} {e : ℤ} (hpos : 0 < m) (hm : Stored m e) (he : e ≤ 971) :
    ∃ q : ℚ, 2 ^ (-1074 : ℤ) ≤ q ∧ q ≤ safe ∧ RoundsTo q
      (Float.Model.pack (roundWithAccuracy .binary64 .positive (sqrtCore .binary64 m e).1
        (sqrtCore .binary64 m e).2.1 (sqrtCore .binary64 m e).2.2)).unpack := by
  set t := (sqrtCore .binary64 m e).2.1 with ht
  set k := (e - 2 * t).toNat with hk
  have htarget : t = min (e / 2)
    (max (((m.log2 : ℤ) + 1 + e + 1) / 2 - (53 : Nat)) (-1074)) := rfl
  have hmin := hm.le_exponent
  have hroot : 2 ^ 52 ≤ (m <<< k).sqrt := by
    rw [Nat.le_sqrt, Nat.shiftLeft_eq, ← pow_add]
    calc 2 ^ (52 + 52)
        ≤ 2 ^ (m.log2 + k) := Nat.pow_le_pow_right two_pos (by omega)
      _ = 2 ^ m.log2 * 2 ^ k := pow_add 2 _ _
      _ ≤ m * 2 ^ k := Nat.mul_le_mul_right _ (Nat.log2_self_le hpos.ne')
  obtain ⟨v, hv⟩ := exists_located_sqrt (m <<< k)
  have hlong : 52 ≤ (m <<< k).sqrt.log2 := (Nat.le_log2 (by omega)).2 hroot
  refine ⟨_, ?_, ?_, roundsTo_roundWithAccuracy .positive hv (.inl hlong)⟩
  all_goals rw [show Sign.positive.apply 1 = 1 from rfl, Int.cast_one, one_mul]
  · have hv1 : 1 ≤ v := by
      refine le_trans ?_ hv.bounds.1
      exact_mod_cast (Nat.one_le_two_pow (n := 52)).trans hroot
    calc (2 : ℚ) ^ (-1074 : ℤ)
        ≤ 2 ^ t := zpow_le_zpow_right₀ one_le_two (by omega)
      _ ≤ v * 2 ^ t := le_mul_of_one_le_left (zpow_pos two_pos t).le hv1
  · have hbound : v ≤ 2 ^ (53 + k : ℤ) := by
      have hlt : (m <<< k).sqrt + 1 ≤ 2 ^ (53 + k) := by
        refine (Nat.sqrt_le_self _).trans_lt ?_
        rw [Nat.shiftLeft_eq, pow_add]
        exact Nat.mul_lt_mul_of_pos_right hm.lt (Nat.two_pow_pos k)
      exact hv.bounds.2.le.trans (by exact_mod_cast hlt)
    calc v * 2 ^ t
        ≤ 2 ^ (53 + k : ℤ) * 2 ^ t := by gcongr
      _ = 2 ^ (53 + k + t : ℤ) := (zpow_add₀ two_ne_zero _ _).symm
      _ ≤ safe := two_zpow_le_safe (by omega)

lemma exists_roundsTo_sqrt {m : ℕ} {e : ℤ} {hm : 0 < m}
    (hparts : parts x = .finite .positive m e hm) :
    ∃ q : ℚ, 2 ^ (-1074 : ℤ) ≤ q ∧ q ≤ safe ∧ RoundsTo q (parts x.sqrt) := by
  obtain ⟨hstored, he⟩ := stored_of_unpack hparts
  obtain ⟨q, hlow, hhigh, hround⟩ := exists_roundsTo_sqrtCore hm hstored he
  refine ⟨q, hlow, hhigh, ?_⟩
  change RoundsTo q (Float.Model.pack (UnpackedFloat.sqrt .binary64 (parts x))).unpack
  rw [hparts]
  exact hround

/-- The root of a positive number is never too large. -/
theorem isFinite_sqrt (hx : x.isFinite = true) (hpos : 0.0 < x) : x.sqrt.isFinite = true := by
  obtain ⟨m, e, hm, hparts⟩ := exists_parts_of_pos hx hpos
  obtain ⟨q, hlow, hhigh, hround⟩ := exists_roundsTo_sqrt hparts
  have hq : |q| = q := abs_of_pos ((zpow_pos two_pos (-1074)).trans_le hlow)
  exact (hround.isFinite (hq.trans_le hhigh)).1

/-- The root of a positive number is never too small. -/
theorem sqrt_pos (hpos : 0.0 < x) : 0.0 < x.sqrt := by
  rcases zero_lt_iff.1 hpos with hinf | ⟨m, e, hm, hparts⟩
  · refine zero_lt_iff.2 (.inl ?_)
    change (Float.Model.pack (UnpackedFloat.sqrt .binary64 (parts x))).unpack = _
    rw [hinf]
    exact unpack_infinity .positive
  · obtain ⟨q, hlow, -, hround⟩ := exists_roundsTo_sqrt hparts
    exact hround.pos_of_le (representable_two_zpow le_rfl) (zpow_pos two_pos (-1074)) hlow

end LikelihoodRatio.Binary64
