/-
# Bounds on binary64 numbers

The size of a number is bounded by powers of two, from above (`Within`) or from both sides
(`Between`).  Powers of two are numbers themselves, so rounding respects such bounds.

A sum of small numbers stays bounded however many there are (`within_foldl_add`): once it is large
enough, adding one more does not change it.
-/
import LikelihoodRatio.Proofs.Binary64.Scientific

namespace LikelihoodRatio.Binary64

/-- A finite number of magnitude `2 ^ k` at most. -/
structure Within (k : ℤ) (x : Float) : Prop where
  isFinite : x.isFinite = true
  abs_le : |value x| ≤ 2 ^ k

/-- A positive finite number from `2 ^ k` to `2 ^ l`. -/
structure Between (k l : ℤ) (x : Float) : Prop where
  isFinite : x.isFinite = true
  ge : 2 ^ k ≤ value x
  le : value x ≤ 2 ^ l

variable {k l k' l' j : ℤ} {x y s : Float} {q : ℚ}

lemma representable_value (hx : x.isFinite = true) : Representable (value x) :=
  (storable_parts_iff.2 hx).representable

/-! ### Results within bounds -/

lemma within_of_roundsTo (h : RoundsTo q (parts x)) (hq : |q| ≤ 2 ^ k) (hk : -1074 ≤ k)
    (hk' : k ≤ 1023) : Within k x := by
  obtain ⟨hx, hnear⟩ := h.isFinite (hq.trans (two_zpow_le_safe hk'))
  obtain ⟨hlow, hhigh⟩ := abs_le.1 hq
  exact ⟨hx, abs_le.2 ⟨hnear.ge_of_ge (representable_two_zpow hk).neg hlow,
    hnear.le_of_le (representable_two_zpow hk) hhigh⟩⟩

lemma between_of_roundsTo (h : RoundsTo q (parts x)) (hge : 2 ^ k ≤ q) (hle : q ≤ 2 ^ l)
    (hk : -1074 ≤ k) (hl : l ≤ 1023) : Between k l x := by
  have hpos : 0 < q := (zpow_pos two_pos k).trans_le hge
  have hkl : k ≤ l := (zpow_le_zpow_iff_right₀ one_lt_two).1 (hge.trans hle)
  have hq : |q| ≤ safe := by
    rw [abs_of_pos hpos]
    exact hle.trans (two_zpow_le_safe hl)
  obtain ⟨hx, hnear⟩ := h.isFinite hq
  exact ⟨hx, hnear.ge_of_ge (representable_two_zpow hk) hge,
    hnear.le_of_le (representable_two_zpow (hk.trans hkl)) hle⟩

lemma within_zero (k : ℤ) : Within k 0.0 := by
  refine ⟨rfl, ?_⟩
  rw [value_zero, abs_zero]
  exact (zpow_pos two_pos k).le

lemma two_zpow_add_le (hk : k < j) (hl : l < j) : (2 : ℚ) ^ k + 2 ^ l ≤ 2 ^ j := by
  have hk' : (2 : ℚ) ^ k ≤ 2 ^ (j - 1) := zpow_le_zpow_right₀ one_le_two (by omega)
  have hl' : (2 : ℚ) ^ l ≤ 2 ^ (j - 1) := zpow_le_zpow_right₀ one_le_two (by omega)
  have hj : (2 : ℚ) ^ j = 2 * 2 ^ (j - 1) := by
    rw [← zpow_one_add₀ two_ne_zero]
    congr 1
    ring
  linarith

lemma Within.add (hx : Within k x) (hy : Within l y) (hk : k < j) (hl : l < j) (hj : -1074 ≤ j)
    (hj' : j ≤ 1023) : Within j (x + y) :=
  within_of_roundsTo (roundsTo_add hx.isFinite hy.isFinite)
    ((abs_add_le _ _).trans ((add_le_add hx.abs_le hy.abs_le).trans (two_zpow_add_le hk hl))) hj hj'

lemma Within.sub (hx : Within k x) (hy : Within l y) (hk : k < j) (hl : l < j) (hj : -1074 ≤ j)
    (hj' : j ≤ 1023) : Within j (x - y) :=
  within_of_roundsTo (roundsTo_sub hx.isFinite hy.isFinite)
    ((abs_sub _ _).trans ((add_le_add hx.abs_le hy.abs_le).trans (two_zpow_add_le hk hl))) hj hj'

lemma Within.mul (hx : Within k x) (hy : Within l y) (hj : -1074 ≤ k + l) (hj' : k + l ≤ 1023) :
    Within (k + l) (x * y) := by
  refine within_of_roundsTo (roundsTo_mul hx.isFinite hy.isFinite) ?_ hj hj'
  rw [abs_mul, zpow_add₀ two_ne_zero]
  exact mul_le_mul hx.abs_le hy.abs_le (abs_nonneg _) (zpow_pos two_pos k).le

namespace Between

lemma pos (h : Between k l x) : 0.0 < x :=
  (pos_iff_value h.isFinite).2 ((zpow_pos two_pos k).trans_le h.ge)

lemma within (h : Between k l x) : Within l x := by
  refine ⟨h.isFinite, ?_⟩
  rw [abs_of_pos ((zpow_pos two_pos k).trans_le h.ge)]
  exact h.le

lemma mul (hx : Between k l x) (hy : Between k' l' y) (hk : -1074 ≤ k + k') (hl : l + l' ≤ 1023) :
    Between (k + k') (l + l') (x * y) := by
  have hy0 := (zpow_pos two_pos k').trans_le hy.ge
  have hx0 := (zpow_pos two_pos k).trans_le hx.ge
  refine between_of_roundsTo (roundsTo_mul hx.isFinite hy.isFinite) ?_ ?_ hk hl
  · rw [zpow_add₀ two_ne_zero]
    exact mul_le_mul hx.ge hy.ge (zpow_pos two_pos k').le hx0.le
  · rw [zpow_add₀ two_ne_zero]
    exact mul_le_mul hx.le hy.le hy0.le (zpow_pos two_pos l).le

lemma div (hx : Between k l x) (hy : Between k' l' y) (hk : -1074 ≤ k - l') (hl : l - k' ≤ 1023) :
    Between (k - l') (l - k') (x / y) := by
  have hy0 := (zpow_pos two_pos k').trans_le hy.ge
  have hx0 := (zpow_pos two_pos k).trans_le hx.ge
  refine between_of_roundsTo (roundsTo_div hx.isFinite hy.isFinite hy0.ne') ?_ ?_ hk hl
  · rw [zpow_sub₀ two_ne_zero]
    exact div_le_div₀ hx0.le hx.ge hy0 hy.le
  · rw [zpow_sub₀ two_ne_zero]
    exact div_le_div₀ (zpow_pos two_pos l).le hx.le (zpow_pos two_pos k') hy.ge

end Between

/-! ### Sums -/

/-- A sum that is large enough does not grow by what is added to it. -/
lemma Within.add_small (hs : Within k s) (hx : Within (k - 54) x) (hk : -1074 ≤ k)
    (hk' : k ≤ 1022) : Within k (s + x) := by
  have hsum : |value s + value x| ≤ 2 ^ k + 2 ^ (k - 54) :=
    (abs_add_le _ _).trans (add_le_add hs.abs_le hx.abs_le)
  have hsafe : |value s + value x| ≤ safe :=
    (hsum.trans (two_zpow_add_le (j := k + 1) (by omega) (by omega))).trans
      (two_zpow_le_safe (by omega))
  obtain ⟨hfinite, hnear⟩ := (roundsTo_add hs.isFinite hx.isFinite).isFinite hsafe
  exact ⟨hfinite, hnear.abs_le_two_zpow hk hsum⟩

/-- The bound on a sum of any number of terms. -/
lemma within_foldl_add {xs : List Float} (hs : Within k s) (hxs : ∀ x ∈ xs, Within (k - 54) x)
    (hk : -1074 ≤ k) (hk' : k ≤ 1022) : Within k (xs.foldl (· + ·) s) := by
  induction xs generalizing s with
  | nil => exact hs
  | cons x xs ih =>
    rw [List.forall_mem_cons] at hxs
    exact ih (hs.add_small hxs.1 hk hk') hxs.2

/-- A sum of numbers that are not negative is at least each of them. -/
lemma value_le_add (hx : x.isFinite = true) (hy : y.isFinite = true)
    (hsum : (x + y).isFinite = true) (hx0 : 0 ≤ value x) (hy0 : 0 ≤ value y) :
    value x ≤ value (x + y) ∧ value y ≤ value (x + y) := by
  have hnear := (roundsTo_add hx hy).nearest hsum
  exact ⟨hnear.ge_of_ge (representable_value hx) (by linarith),
    hnear.ge_of_ge (representable_value hy) (by linarith)⟩

lemma value_le_foldl_add {xs : List Float} (hs : Within k s) (hs0 : 0 ≤ value s)
    (hxs : ∀ x ∈ xs, Within (k - 54) x ∧ 0 ≤ value x) (hk : -1074 ≤ k) (hk' : k ≤ 1022) :
    value s ≤ value (xs.foldl (· + ·) s) ∧ ∀ x ∈ xs, value x ≤ value (xs.foldl (· + ·) s) := by
  induction xs generalizing s with
  | nil => exact ⟨le_rfl, fun x hx => nomatch hx⟩
  | cons x xs ih =>
    rw [List.forall_mem_cons] at hxs
    obtain ⟨⟨hx, hx0⟩, hxs⟩ := hxs
    have hsum := hs.add_small hx hk hk'
    obtain ⟨hles, hlex⟩ := value_le_add hs.isFinite hx.isFinite hsum.isFinite hs0 hx0
    obtain ⟨hle, hmem⟩ := ih hsum (hs0.trans hles) hxs
    rw [List.foldl_cons, List.forall_mem_cons]
    exact ⟨hles.trans hle, hlex.trans hle, hmem⟩

end LikelihoodRatio.Binary64
