/-
# The nearest number

An operation on finite numbers gives the number nearest to the exact result (`Nearest`), or an
infinite one if the exact result is too large (`RoundsTo`).  Where the bits that a shift drops are
remembered as whether they are nothing, less than one half, one half or more, rounding the mantissa
finds the nearest one (`roundsTo_roundWithAccuracy`).

The nearest number stays on the same side of every number that can be held (`Nearest.le_of_le`), and
a number that is large enough does not grow by adding a small one (`Nearest.le_two_zpow`).
-/
import LikelihoodRatio.Proofs.Binary64.Value

namespace LikelihoodRatio.Binary64

open Float.Model Float.Model.UnpackedFloat

/-! ### Numbers that can be held -/

/-- A mantissa of 53 bits and an exponent hold the number, which may be beyond the largest one. -/
def Representable (b : ℚ) : Prop := ∃ n t : ℤ, |n| ≤ 2 ^ 53 ∧ -1074 ≤ t ∧ b = n * 2 ^ t

variable {b q r : ℚ} {k n t : ℤ}

lemma representable_zero : Representable 0 := ⟨0, 0, by norm_num, by norm_num, by norm_num⟩

lemma representable_two_zpow (hk : -1074 ≤ k) : Representable (2 ^ k) :=
  ⟨1, k, by norm_num, hk, by norm_num⟩

lemma representable_intCast (hn : |n| ≤ 2 ^ 53) : Representable n :=
  ⟨n, 0, hn, by norm_num, by norm_num⟩

lemma Representable.neg (hb : Representable b) : Representable (-b) := by
  obtain ⟨n, t, hn, ht, rfl⟩ := hb
  exact ⟨-n, t, by rwa [abs_neg], ht, by push_cast; ring⟩

lemma Storable.representable {a : UnpackedFloat} (ha : Storable a) :
    Representable (rational a) := by
  cases a, ha using Storable.cases with
  | zero sign => exact representable_zero
  | finite sign m e hm ha =>
    have hlt := ha.1.lt
    refine ⟨sign.apply m, e, ?_, ha.1.le_exponent, rfl⟩
    cases sign <;> simp only [Sign.apply, abs_neg, Nat.abs_cast] <;> exact_mod_cast hlt.le

/-- A multiple of a power of two is a multiple of each smaller power. -/
lemma mul_two_zpow_of_le {u : ℤ} (h : t ≤ u) (k : ℤ) : ∃ k' : ℤ, (k : ℚ) * 2 ^ u = k' * 2 ^ t := by
  refine ⟨k * 2 ^ (u - t).toNat, ?_⟩
  have hsub : ((u - t).toNat : ℤ) = u - t := by omega
  push_cast
  rw [← zpow_natCast, hsub, mul_assoc, ← zpow_add₀ two_ne_zero, sub_add_cancel]

/-- A number that needs a smaller exponent than `2 ^ k` has is not larger. -/
lemma abs_mul_two_zpow_le (hn : |n| ≤ 2 ^ 53) (ht : t + 53 ≤ k) : |(n : ℚ) * 2 ^ t| ≤ 2 ^ k := by
  have hn' : |(n : ℚ)| ≤ 2 ^ (53 : ℤ) := by exact_mod_cast hn
  calc |(n : ℚ) * 2 ^ t|
      = |(n : ℚ)| * 2 ^ t := by rw [abs_mul, abs_of_pos (show (0 : ℚ) < 2 ^ t by positivity)]
    _ ≤ 2 ^ (53 : ℤ) * 2 ^ t := by gcongr
    _ = 2 ^ (53 + t) := (zpow_add₀ two_ne_zero _ _).symm
    _ ≤ 2 ^ k := zpow_le_zpow_right₀ one_le_two (by omega)

/-- A positive number is at least the smallest one. -/
lemma Representable.le_of_pos (hb : Representable b) (hpos : 0 < b) : 2 ^ (-1074 : ℤ) ≤ b := by
  obtain ⟨n, t, -, ht, rfl⟩ := hb
  have hone : (1 : ℚ) ≤ n := by
    exact_mod_cast (pos_of_mul_pos_left hpos (zpow_pos two_pos t).le : (0 : ℚ) < n)
  calc (2 : ℚ) ^ (-1074 : ℤ)
      ≤ 2 ^ t := zpow_le_zpow_right₀ one_le_two ht
    _ ≤ n * 2 ^ t := le_mul_of_one_le_left (zpow_pos two_pos t).le hone

/-- There is no number shortly above a power of two. -/
lemma Representable.add_le_of_lt (hb : Representable b) (hlt : 2 ^ k < b) :
    2 ^ k + 2 ^ (k - 52) ≤ b := by
  obtain ⟨n, t, hn, -, rfl⟩ := hb
  by_cases ht : k - 52 ≤ t
  · obtain ⟨n', hn'⟩ := mul_two_zpow_of_le ht n
    have hpow : (2 : ℚ) ^ k = (2 ^ 52 : ℤ) * 2 ^ (k - 52) := by
      have hexp : k = 52 + (k - 52) := by ring
      nth_rewrite 1 [hexp]
      rw [zpow_add₀ two_ne_zero]
      norm_num
    rw [hn', hpow] at hlt ⊢
    have hnext : (2 ^ 52 : ℤ) + 1 ≤ n' := by
      exact_mod_cast (mul_lt_mul_iff_left₀ (zpow_pos two_pos (k - 52))).1 hlt
    have hnext' : ((2 ^ 52 : ℤ) : ℚ) + 1 ≤ n' := by exact_mod_cast hnext
    calc ((2 ^ 52 : ℤ) : ℚ) * 2 ^ (k - 52) + 2 ^ (k - 52)
        = (((2 ^ 52 : ℤ) : ℚ) + 1) * 2 ^ (k - 52) := by ring
      _ ≤ n' * 2 ^ (k - 52) := by gcongr
  · have hle := (le_abs_self _).trans (abs_mul_two_zpow_le hn (by omega : t + 53 ≤ k))
    exact absurd hle hlt.not_ge

/-! ### Nearest numbers -/

/-- No number that can be held is nearer to `q` than `r` is. -/
structure Nearest (q r : ℚ) : Prop where
  representable : Representable r
  le : ∀ b, Representable b → |r - q| ≤ |b - q|

namespace Nearest

lemma neg (h : Nearest q r) : Nearest (-q) (-r) := by
  refine ⟨h.representable.neg, fun b hb => ?_⟩
  calc |-r - -q|
      = |r - q| := by rw [← abs_neg]; congr 1; ring
    _ ≤ |-b - q| := h.le (-b) hb.neg
    _ = |b - -q| := by rw [← abs_neg]; congr 1; ring

/-- Rounding up does not pass a number that can be held. -/
lemma le_of_le (h : Nearest q r) (hb : Representable b) (hle : q ≤ b) : r ≤ b := by
  by_contra hlt
  rw [not_le] at hlt
  have hnear := h.le b hb
  rw [abs_of_pos (by linarith), abs_of_nonneg (by linarith)] at hnear
  linarith

/-- Rounding down does not pass a number that can be held. -/
lemma ge_of_ge (h : Nearest q r) (hb : Representable b) (hle : b ≤ q) : b ≤ r :=
  neg_le_neg_iff.1 (h.neg.le_of_le hb.neg (neg_le_neg hle))

lemma eq_of_representable (h : Nearest q r) (hq : Representable q) : r = q :=
  le_antisymm (h.le_of_le hq le_rfl) (h.ge_of_ge hq le_rfl)

/-- What is added to a large number is lost if it is small. -/
lemma le_two_zpow (h : Nearest q r) (hk : -1074 ≤ k) (hq : q ≤ 2 ^ k + 2 ^ (k - 54)) :
    r ≤ 2 ^ k := by
  by_contra hlt
  rw [not_le] at hlt
  have hgap := h.representable.add_le_of_lt hlt
  have hsplit : (2 : ℚ) ^ (k - 52) = 4 * 2 ^ (k - 54) := by
    have hexp : k - 52 = 2 + (k - 54) := by ring
    rw [hexp, zpow_add₀ two_ne_zero]
    norm_num
  have hpos : (0 : ℚ) < 2 ^ (k - 54) := zpow_pos two_pos _
  by_cases hle : q ≤ 2 ^ k
  · exact absurd (h.le_of_le (representable_two_zpow hk) hle) hlt.not_ge
  · have hnear := h.le _ (representable_two_zpow hk)
    rw [abs_of_pos (by linarith), abs_of_neg (by linarith)] at hnear
    linarith

lemma abs_le_two_zpow (h : Nearest q r) (hk : -1074 ≤ k) (hq : |q| ≤ 2 ^ k + 2 ^ (k - 54)) :
    |r| ≤ 2 ^ k := by
  rw [abs_le] at hq
  rw [abs_le]
  have hneg := h.neg.le_two_zpow hk (by linarith)
  exact ⟨by linarith, h.le_two_zpow hk hq.2⟩

lemma apply (h : Nearest q r) (sign : Sign) : Nearest (sign.apply 1 * q) (sign.apply 1 * r) := by
  cases sign with
  | negative => simpa [Sign.apply] using h.neg
  | positive => simpa [Sign.apply] using h

end Nearest

/-- Of the multiples of a power of two, the one within half of that power is nearest. -/
lemma abs_sub_le_multiple (hnear : |(n : ℚ) * 2 ^ t - q| ≤ 2 ^ t / 2) (k : ℤ) :
    |(n : ℚ) * 2 ^ t - q| ≤ |(k : ℚ) * 2 ^ t - q| := by
  rcases eq_or_ne n k with rfl | hne
  · exact le_rfl
  · have hpos : (0 : ℚ) < 2 ^ t := by positivity
    have hone : (1 : ℚ) ≤ |(n : ℚ) - k| := by
      exact_mod_cast Int.one_le_abs (sub_ne_zero.2 hne)
    have hfar : (2 : ℚ) ^ t ≤ |(n : ℚ) * 2 ^ t - k * 2 ^ t| := by
      rw [← sub_mul, abs_mul, abs_of_pos hpos]
      exact le_mul_of_one_le_left hpos.le hone
    have htriangle := abs_sub_le ((n : ℚ) * 2 ^ t) q (k * 2 ^ t)
    rw [abs_sub_comm q] at htriangle
    linarith

/-- A multiple of the last place of a number is nearest to it within half of that place. -/
lemma nearest_of_abs_sub_le (hn : |n| ≤ 2 ^ 53) (ht : -1074 ≤ t)
    (hlarge : t = -1074 ∨ 2 ^ (t + 52) ≤ |q|) (hnear : |(n : ℚ) * 2 ^ t - q| ≤ 2 ^ t / 2) :
    Nearest q (n * 2 ^ t) := by
  refine ⟨⟨n, t, hn, ht, rfl⟩, ?_⟩
  rintro _ ⟨k, u, hk, hu, rfl⟩
  by_cases htu : t ≤ u
  · obtain ⟨k', hk'⟩ := mul_two_zpow_of_le htu k
    rw [hk']
    exact abs_sub_le_multiple hnear k'
  · -- A number with a smaller exponent is beyond the smallest of those with this exponent.
    have hsmall : |(k : ℚ) * 2 ^ u| ≤ 2 ^ (t + 52) := abs_mul_two_zpow_le hk (by omega)
    have hlarge' : 2 ^ (t + 52) ≤ |q| := hlarge.resolve_left (by omega)
    have hpow : (2 : ℚ) ^ (t + 52) = (2 ^ 52 : ℤ) * 2 ^ t := by
      rw [add_comm, zpow_add₀ two_ne_zero]
      norm_num
    rw [abs_le] at hsmall
    rcases le_total 0 q with hq | hq
    · rw [abs_of_nonneg hq] at hlarge'
      have hle := abs_sub_le_multiple hnear (2 ^ 52)
      rw [← hpow, abs_of_nonpos (by linarith : (2 : ℚ) ^ (t + 52) - q ≤ 0)] at hle
      rw [abs_of_nonpos (by linarith : (k : ℚ) * 2 ^ u - q ≤ 0)]
      linarith
    · rw [abs_of_nonpos hq] at hlarge'
      have hle := abs_sub_le_multiple hnear (-2 ^ 52)
      rw [Int.cast_neg, neg_mul, ← hpow,
        abs_of_nonneg (by linarith : 0 ≤ -(2 : ℚ) ^ (t + 52) - q)] at hle
      rw [abs_of_nonneg (by linarith : 0 ≤ (k : ℚ) * 2 ^ u - q)]
      linarith

/-! ### What the dropped bits tell -/

/-- A mantissa and its accuracy say where a number lies behind the mantissa. -/
def Located (m : ℕ) : Accuracy → ℚ → Prop
  | .exact, x => x = m
  | .inexact .lt, x => m < x ∧ x < m + 1 / 2
  | .inexact .eq, x => x = m + 1 / 2
  | .inexact .gt, x => m + 1 / 2 < x ∧ x < m + 1

variable {m : ℕ} {accuracy : Accuracy} {x : ℚ}

lemma Located.bounds (h : Located m accuracy x) : m ≤ x ∧ x < m + 1 := by
  match accuracy, h with
  | .exact, h =>
    obtain rfl : x = m := h
    constructor <;> linarith
  | .inexact .lt, ⟨hlow, hhigh⟩ => constructor <;> linarith
  | .inexact .eq, h =>
    obtain rfl : x = m + 1 / 2 := h
    constructor <;> linarith
  | .inexact .gt, ⟨hlow, hhigh⟩ => constructor <;> linarith

/-- Rounding leaves at most one half. -/
lemma Located.abs_round_sub_le (h : Located m accuracy x) :
    |(accuracy.roundToNearestEven m : ℚ) - x| ≤ 1 / 2 := by
  rw [abs_le]
  match accuracy, h with
  | .exact, h =>
    obtain rfl : x = m := h
    constructor <;> simp [Accuracy.roundToNearestEven]
  | .inexact .lt, ⟨hlow, hhigh⟩ =>
    simp only [Accuracy.roundToNearestEven]
    constructor <;> linarith
  | .inexact .eq, h =>
    obtain rfl : x = m + 1 / 2 := h
    rcases Nat.mod_two_eq_zero_or_one m with hmod | hmod <;>
      simp only [Accuracy.roundToNearestEven, hmod] <;> push_cast <;> constructor <;> linarith
  | .inexact .gt, ⟨hlow, hhigh⟩ =>
    simp only [Accuracy.roundToNearestEven]
    push_cast
    constructor <;> linarith

/-- Dropping a bit halves the number, and what is remembered of it stays true. -/
lemma Located.shiftRightOne {em : ExtendedMantissa} (h : Located em.mantissa em.accuracy x) :
    Located em.shiftRightOne.mantissa em.shiftRightOne.accuracy (x / 2) := by
  obtain ⟨m, round, sticky⟩ := em
  have hdiv : (m : ℚ) = 2 * (m / 2 : ℕ) + (m % 2 : ℕ) := by
    exact_mod_cast (Nat.div_add_mod m 2).symm
  -- The lowest bit of the mantissa is the next round bit.
  rcases Nat.mod_two_eq_zero_or_one m with hmod | hmod
  · have hround : (m % 2 != 0) = false := by simp [hmod]
    rw [hmod, Nat.cast_zero, add_zero] at hdiv
    cases round <;> cases sticky <;>
      simp only [ExtendedMantissa.shiftRightOne, ExtendedMantissa.accuracy, Located, hround,
        Bool.or_false, Bool.or_true] at h ⊢ <;>
      first | linarith | (constructor <;> linarith)
  · have hround : (m % 2 != 0) = true := by simp [hmod]
    rw [hmod, Nat.cast_one] at hdiv
    cases round <;> cases sticky <;>
      simp only [ExtendedMantissa.shiftRightOne, ExtendedMantissa.accuracy, Located, hround,
        Bool.or_false, Bool.or_true] at h ⊢ <;>
      first | linarith | (constructor <;> linarith)

lemma Located.shiftRight {em : ExtendedMantissa} (h : Located em.mantissa em.accuracy x) (k : ℕ) :
    Located (em >>> k).mantissa (em >>> k).accuracy (x / 2 ^ k) := by
  change Located (Nat.repeat ExtendedMantissa.shiftRightOne k em).mantissa
    (Nat.repeat ExtendedMantissa.shiftRightOne k em).accuracy (x / 2 ^ k)
  induction k with
  | zero => simpa [Nat.repeat] using h
  | succ k ih =>
    rw [pow_succ, ← div_div]
    exact ih.shiftRightOne

/-! ### Results -/

lemma apply_mul_apply (sign : Sign) : (sign.apply 1 : ℚ) * sign.apply 1 = 1 := by
  cases sign <;> simp [Sign.apply]

/-- The largest number.  No result up to this one is too large. -/
def safe : ℚ := (2 ^ 53 - 1 : ℤ) * 2 ^ (971 : ℤ)

lemma representable_safe : Representable safe := ⟨2 ^ 53 - 1, 971, by norm_num, by norm_num, rfl⟩

lemma safe_pos : 0 < safe := mul_pos (by norm_num) (zpow_pos two_pos 971)

lemma two_zpow_le_safe (hk : k ≤ 1023) : 2 ^ k ≤ safe := by
  calc (2 : ℚ) ^ k
      ≤ 2 ^ (52 + 971 : ℤ) := zpow_le_zpow_right₀ one_le_two (by omega)
    _ = (2 ^ 52 : ℤ) * 2 ^ (971 : ℤ) := by
      rw [zpow_add₀ two_ne_zero]
      norm_num
    _ ≤ safe := mul_le_mul_of_nonneg_right (by norm_num) (zpow_pos two_pos 971).le

lemma safe_lt_two_zpow (hk : 1024 ≤ k) : safe < 2 ^ k := by
  calc safe
      < (2 ^ 53 : ℤ) * 2 ^ (971 : ℤ) :=
        mul_lt_mul_of_pos_right (by norm_num) (zpow_pos two_pos 971)
    _ = 2 ^ (53 + 971 : ℤ) := by
      rw [zpow_add₀ two_ne_zero]
      norm_num
    _ ≤ 2 ^ k := zpow_le_zpow_right₀ one_le_two (by omega)

lemma Storable.abs_rational_le {a : UnpackedFloat} (ha : Storable a) : |rational a| ≤ safe := by
  cases a, ha using Storable.cases with
  | zero sign => exact abs_zero.trans_le safe_pos.le
  | finite sign m e hm ha =>
    have hm' : (m : ℤ) ≤ 2 ^ 53 - 1 := by
      have hlt := ha.1.lt
      omega
    have habs : |rational (.finite sign m e hm)| = m * 2 ^ e := by
      have hpos := (mul_two_zpow_pos hm e).le
      cases sign with
      | negative => rw [rational_negative, abs_neg, abs_of_nonneg hpos]
      | positive => rw [rational_positive, abs_of_nonneg hpos]
    rw [habs]
    exact mul_le_mul (by exact_mod_cast hm') (zpow_le_zpow_right₀ one_le_two ha.2)
      (zpow_pos two_pos e).le (by norm_num)

/-- The parts hold the number nearest to `q`, or stand for an infinite one if `q` is too large. -/
def RoundsTo (q : ℚ) (a : UnpackedFloat) : Prop :=
  Storable a ∧ Nearest q (rational a) ∨ ∃ sign : Sign, a = .infinity sign ∧ safe < sign.apply 1 * q

variable {e : ℤ}

/-- The first shift leaves a mantissa of 53 bits, or ends at the smallest exponent. -/
lemma shifted_bounds (hx : Located m accuracy x) (hlong : 52 ≤ m.log2 ∨ e ≤ -1074) :
    -1074 ≤ e + shiftAmount m e ∧ x * 2 ^ e < 2 ^ (e + shiftAmount m e + 53) ∧
      (e + shiftAmount m e = -1074 ∨ 2 ^ (e + shiftAmount m e + 52) ≤ x * 2 ^ e) := by
  have hshift := shiftAmount_eq m e
  have hpos : (0 : ℚ) < 2 ^ e := by positivity
  obtain ⟨hlow, hhigh⟩ := hx.bounds
  refine ⟨by omega, ?_, ?_⟩
  · have hm : (m : ℚ) + 1 ≤ 2 ^ (m.log2 + 1 : ℤ) := by exact_mod_cast Nat.lt_log2_self
    calc x * 2 ^ e
        < 2 ^ (m.log2 + 1 : ℤ) * 2 ^ e := by gcongr; exact hhigh.trans_le hm
      _ = 2 ^ (m.log2 + 1 + e : ℤ) := (zpow_add₀ two_ne_zero _ _).symm
      _ ≤ 2 ^ (e + shiftAmount m e + 53) := zpow_le_zpow_right₀ one_le_two (by omega)
  · by_cases hmin : e + shiftAmount m e = -1074
    · exact .inl hmin
    · have hm : (2 : ℚ) ^ (m.log2 : ℤ) ≤ m := by
        exact_mod_cast Nat.log2_self_le (by rintro rfl; simp at hshift hlong; omega)
      refine .inr ?_
      calc (2 : ℚ) ^ (e + shiftAmount m e + 52)
          = 2 ^ (m.log2 + e : ℤ) := by congr 1; omega
        _ = 2 ^ (m.log2 : ℤ) * 2 ^ e := zpow_add₀ two_ne_zero _ _
        _ ≤ x * 2 ^ e := by gcongr; exact hm.trans hlow

/-- Rounding a shifted mantissa leaves at most half of its last place. -/
lemma abs_rounded_sub_le (hx : Located m accuracy x) :
    |(rounded m e accuracy : ℚ) * 2 ^ (e + shiftAmount m e) - x * 2 ^ e| ≤
      2 ^ (e + shiftAmount m e) / 2 := by
  have hlocated : Located (ExtendedMantissa.ofMantissaAndAccuracy m accuracy).mantissa
      (ExtendedMantissa.ofMantissaAndAccuracy m accuracy).accuracy x := by
    match accuracy, hx with
    | .exact, hx => exact hx
    | .inexact .lt, hx => exact hx
    | .inexact .eq, hx => exact hx
    | .inexact .gt, hx => exact hx
  have hnear : |(rounded m e accuracy : ℚ) - x / 2 ^ shiftAmount m e| ≤ 1 / 2 :=
    (hlocated.shiftRight _).abs_round_sub_le
  have hpos : (0 : ℚ) < 2 ^ (e + shiftAmount m e) := by positivity
  have hshift : x * 2 ^ e = x / 2 ^ shiftAmount m e * 2 ^ (e + shiftAmount m e) := by
    rw [zpow_add₀ two_ne_zero, zpow_natCast]
    field_simp
  rw [hshift, ← sub_mul, abs_mul, abs_of_pos hpos]
  linarith [mul_le_mul_of_nonneg_right hnear hpos.le]

/-- The rounded mantissa has 53 bits again, except for a carry or at the smallest exponent. -/
lemma rounded_bounds (hx : Located m accuracy x) (hlong : 52 ≤ m.log2 ∨ e ≤ -1074) :
    rounded m e accuracy ≤ 2 ^ 53 ∧
      (2 ^ 52 ≤ rounded m e accuracy ∨ e + shiftAmount m e = -1074) := by
  obtain ⟨-, hhigh, hlow⟩ := shifted_bounds hx hlong
  obtain ⟨hdown, hup⟩ := abs_le.1 (abs_rounded_sub_le (e := e) hx)
  have hpos : (0 : ℚ) < 2 ^ (e + shiftAmount m e) := by positivity
  rw [zpow_add₀ two_ne_zero] at hhigh hlow
  constructor
  · have hlt : (rounded m e accuracy : ℚ) < 2 ^ 53 + 1 := by
      refine lt_of_mul_lt_mul_right ?_ hpos.le
      norm_num at hhigh ⊢
      linarith
    exact Nat.lt_succ_iff.1 (by exact_mod_cast hlt)
  · refine hlow.symm.imp_left fun hlow => ?_
    have hlt : (2 : ℚ) ^ 52 < rounded m e accuracy + 1 := by
      refine lt_of_mul_lt_mul_right ?_ hpos.le
      norm_num at hlow ⊢
      linarith
    exact Nat.lt_succ_iff.1 (by exact_mod_cast hlt)

lemma nearest_rounded (hx : Located m accuracy x) (hlong : 52 ≤ m.log2 ∨ e ≤ -1074) :
    Nearest (x * 2 ^ e) (rounded m e accuracy * 2 ^ (e + shiftAmount m e)) := by
  obtain ⟨hmin, -, hlow⟩ := shifted_bounds hx hlong
  have hle : |(rounded m e accuracy : ℤ)| ≤ 2 ^ 53 := by
    rw [Nat.abs_cast]
    exact_mod_cast (rounded_bounds hx hlong).1
  have hnonneg : 0 ≤ x * 2 ^ e := by
    have := (Nat.cast_nonneg m).trans hx.bounds.1
    positivity
  rw [← abs_of_nonneg hnonneg] at hlow
  exact_mod_cast nearest_of_abs_sub_le hle hmin hlow (by exact_mod_cast abs_rounded_sub_le hx)

/-- What is rounded to a number beyond the largest one is large itself. -/
lemma lt_of_overflow (hstored : Stored m e) (he : 971 < e) (hnear : Nearest q (m * 2 ^ e)) :
    safe < q := by
  by_contra hle
  have hrounded := hnear.le_of_le representable_safe (not_lt.1 hle)
  have hfull : (2 : ℚ) ^ (52 : ℤ) ≤ m := by
    have := hstored.full.resolve_right (by omega)
    exact_mod_cast this
  have hlarge : safe < m * 2 ^ e := by
    calc safe
        < 2 ^ (52 + e) := safe_lt_two_zpow (by omega)
      _ = 2 ^ (52 : ℤ) * 2 ^ e := zpow_add₀ two_ne_zero _ _
      _ ≤ m * 2 ^ e := by gcongr
  exact absurd hrounded hlarge.not_ge

/-- **Rounding.**  Bits enough for a mantissa, or for the smallest exponent, are rounded to the
nearest number. -/
theorem roundsTo_roundWithAccuracy (sign : Sign) (hx : Located m accuracy x)
    (hlong : 52 ≤ m.log2 ∨ e ≤ -1074) :
    RoundsTo (sign.apply 1 * (x * 2 ^ e))
      (Float.Model.pack (roundWithAccuracy .binary64 sign m e accuracy)).unpack := by
  have hnear := nearest_rounded hx hlong
  rcases Nat.eq_zero_or_pos (rounded m e accuracy) with hzero | hpos
  · have hstorable : Storable (.zero sign) := trivial
    rw [roundWithAccuracy_zero sign hzero, hstorable.unpack_pack]
    refine .inl ⟨trivial, ?_⟩
    rw [hzero, Nat.cast_zero, zero_mul] at hnear
    simpa [rational] using hnear.apply sign
  · obtain ⟨hle, hfull⟩ := rounded_bounds hx hlong
    obtain ⟨hstored, hmul⟩ := stored_shift hpos hle (shifted_bounds hx hlong).1 hfull
    have hpos' := Nat.pos_of_mul_pos_right (hmul.symm ▸ hpos)
    rw [roundWithAccuracy_pos sign hpos', unpack_pack sign hpos' hstored]
    have hvalue (r s : ℕ) (t : ℤ) (h : r / 2 ^ s * 2 ^ s = r) :
        ((r / 2 ^ s : ℕ) : ℚ) * 2 ^ (t + s) = r * 2 ^ t := by
      nth_rewrite 2 [← h]
      rw [zpow_add₀ two_ne_zero, zpow_natCast]
      push_cast
      ring
    rw [← hvalue _ _ _ hmul] at hnear
    by_cases hover : 971 < e + shiftAmount m e +
        shiftAmount (rounded m e accuracy) (e + shiftAmount m e)
    · rw [if_pos hover]
      refine .inr ⟨sign, rfl, ?_⟩
      rw [← mul_assoc, apply_mul_apply, one_mul]
      exact lt_of_overflow hstored hover hnear
    · rw [if_neg hover]
      refine .inl ⟨⟨hstored, not_lt.1 hover⟩, ?_⟩
      rw [rational_finite]
      exact hnear.apply sign

end LikelihoodRatio.Binary64
