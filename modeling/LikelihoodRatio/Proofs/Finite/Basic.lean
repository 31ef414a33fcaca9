/-
# Terms are finite numbers

A count of 64 bits is a number of moderate size, and the logarithm of a positive finite number is
small (`LnBounded`), so a term is far from the largest number (`within_term`, `within_termOfLn`).
An empty cell has no logarithm and needs no bound on what is expected of it.

Sums of counts stay bounded however long they are (`countSum_bounds`).
-/
import LikelihoodRatio.Fourfold
import LikelihoodRatio.Proofs.Binary64.Bounds
import LikelihoodRatio.Proofs.Binary64.Doubling
import LikelihoodRatio.Term

namespace LikelihoodRatio

open Binary64

/-- The logarithm of a positive finite number is a number between -800 and 800, as it is of the
smallest number, which is `2 ^ -1074`, and of the largest one, which is below `2 ^ 1024`. -/
def LnBounded (ln : Float → Float) : Prop :=
  ∀ x : Float, x.isFinite = true → 0.0 < x → -800.0 < ln x ∧ ln x < 800.0

/-- A count that 64 bits can hold. -/
def IsCount (o : Int) : Prop := 0 ≤ o ∧ o ≤ largestCount

variable {ln : Float → Float} {k l : ℤ} {o : Int} {counts : List Int}

/-! ### Logarithms -/

lemma parts_bound : parts 800.0 = .finite .positive 7036874417766400 (-43) (by decide) := rfl

lemma value_bound : value 800.0 = 800 := by
  rw [value, parts_bound, rational_positive]
  norm_num

lemma LnBounded.within (hln : LnBounded ln) {x : Float} (hx : x.isFinite = true) (hpos : 0.0 < x) :
    Within 10 (ln x) := by
  obtain ⟨hlow, hhigh⟩ := hln x hx hpos
  have hfinite : (-800.0 : Float).isFinite = true := isFinite_neg rfl
  have hlnx : (ln x).isFinite = true := isFinite_of_between hfinite rfl hlow hhigh
  have hvalue : value (-800.0) = -800 := by
    rw [value, parts_neg, rational_neg, ← value, value_bound]
  rw [lt_iff_value hfinite hlnx, hvalue] at hlow
  rw [lt_iff_value hlnx rfl, value_bound] at hhigh
  refine ⟨hlnx, abs_le.2 ⟨?_, ?_⟩⟩
  · norm_num
    linarith
  · norm_num
    linarith

lemma LnBounded.within_of_between (hln : LnBounded ln) {x : Float} (hx : Between k l x) :
    Within 10 (ln x) :=
  hln.within hx.isFinite hx.pos

/-! ### Counts -/

lemma between_ofInt (hpos : 0 < o) (hle : o ≤ largestCount) : Between 0 63 (Float.ofInt o) := by
  refine between_of_roundsTo (roundsTo_ofInt o) ?_ ?_ (by norm_num) (by norm_num)
  · rw [zpow_zero]
    exact_mod_cast hpos
  · have hlarge : o ≤ 2 ^ 63 := hle.trans (by decide)
    exact_mod_cast hlarge

lemma within_ofInt (h : IsCount o) : Within 63 (Float.ofInt o) ∧ 0 ≤ value (Float.ofInt o) := by
  rcases h.1.eq_or_lt with rfl | hpos
  · exact ⟨within_zero 63, le_rfl⟩
  · have hbetween := between_ofInt hpos h.2
    exact ⟨hbetween.within, (zpow_pos two_pos 0).le.trans hbetween.ge⟩

/-- A sum of counts is at least each of them, and is bounded however many there are. -/
lemma countSum_bounds (ln : Float → Float) (h : ∀ o ∈ counts, IsCount o) :
    letI := binary64 ln
    Within 117 (countSum counts) ∧ 0 ≤ value (countSum counts) ∧
      ∀ o ∈ counts, value (Float.ofInt o) ≤ value (countSum counts) := by
  have hterms : ∀ x ∈ counts.map Float.ofInt, Within (117 - 54) x ∧ 0 ≤ value x :=
    List.forall_mem_map.2 fun o ho => within_ofInt (h o ho)
  obtain ⟨hle, hmem⟩ := value_le_foldl_add (within_zero 117) le_rfl hterms (by norm_num)
    (by norm_num)
  exact ⟨within_foldl_add (within_zero 117) (fun x hx => (hterms x hx).1) (by norm_num)
    (by norm_num), hle, List.forall_mem_map.1 hmem⟩

lemma between_countSum (ln : Float → Float) (h : ∀ o ∈ counts, IsCount o) (ho : o ∈ counts)
    (hpos : 0 < o) : letI := binary64 ln
    Between 0 117 (countSum counts) := by
  obtain ⟨hwithin, -, hmem⟩ := countSum_bounds ln h
  exact ⟨hwithin.isFinite, (between_ofInt hpos (h o ho).2).ge.trans (hmem o ho),
    (le_abs_self _).trans hwithin.abs_le⟩

/-! ### Terms -/

lemma within_term (hln : LnBounded ln) (ho : IsCount o) {e : Float}
    (he : 0 < o → Between (-171) 234 e) : letI := binary64 ln
    Within 73 (term o e) := by
  change Within 73 (if o = 0 then 0.0 else Float.ofInt o * ln (Float.ofInt o / e))
  split_ifs with hzero
  · exact within_zero 73
  · have hpos : 0 < o := lt_of_le_of_ne ho.1 (Ne.symm hzero)
    have hcount := between_ofInt hpos ho.2
    have hratio := hcount.div (he hpos) (by norm_num) (by norm_num)
    exact hcount.within.mul (hln.within_of_between hratio) (by norm_num) (by norm_num)

lemma within_termOfLn (hln : LnBounded ln) (ho : IsCount o) {lnExpected : Float}
    (he : 0 < o → Within 13 lnExpected) : letI := binary64 ln
    Within 77 (termOfLn o lnExpected) := by
  change Within 77 (if o = 0 then 0.0 else Float.ofInt o * (ln (Float.ofInt o) - lnExpected))
  split_ifs with hzero
  · exact within_zero 77
  · have hpos : 0 < o := lt_of_le_of_ne ho.1 (Ne.symm hzero)
    have hcount := between_ofInt hpos ho.2
    have hdifference := (hln.within_of_between hcount).sub (he hpos) (j := 14) (by norm_num)
      (by norm_num) (by norm_num) (by norm_num)
    exact hcount.within.mul hdifference (by norm_num) (by norm_num)

/-- Twice a sum of terms. -/
lemma within_double {s : Float} (hs : Within k s) (hk : -1075 ≤ k) (hk' : k ≤ 1022) :
    Within (1 + k) (2.0 * s) := by
  have htwo : Within 1 2.0 := ⟨rfl, by rw [value_two]; norm_num⟩
  exact htwo.mul hs (by omega) (by omega)

end LikelihoodRatio
