/-
# The score of two items in exact arithmetic

The counters of a tally decide the sign of the score of two items: it is the sign of
`n * n(a, b) - n(a) * n(b)`, where `n` is the number of transactions (`score_ofHistory_sign`).  So
two items score zero if they occur together exactly as often as independent items would, and an item
that is in no transaction, or in all of them, scores zero with every item.
-/
import LikelihoodRatio.Proofs.Exact.Fourfold
import LikelihoodRatio.Proofs.Tally.Ranking

namespace LikelihoodRatio

open Std (TransOrd LawfulEqOrd)

/-! ### The sign of a score -/

namespace Fourfold

variable {f : Fourfold}

lemma Nonneg.root_eq_zero_iff (h : f.Nonneg) : (f.root : ℝ) = 0 ↔ f.crossDifference = 0 := by
  rw [h.root_real, mul_eq_zero, Int.cast_eq_zero, Int.sign_eq_zero_iff_zero,
    Real.sqrt_eq_zero h.statistic_nonneg, h.statistic_eq_zero_iff, or_self]

lemma Nonneg.root_pos_iff (h : f.Nonneg) : 0 < (f.root : ℝ) ↔ 0 < f.crossDifference := by
  have hroot := h.root_real
  constructor
  · intro hpos
    by_contra hle
    -- A sign that is not positive leaves no positive score.
    have hsign : (Int.sign f.crossDifference : ℝ) ≤ 0 := by
      exact_mod_cast Int.sign_nonpos_iff.2 (not_lt.1 hle)
    have := mul_nonpos_of_nonpos_of_nonneg hsign (Real.sqrt_nonneg f.toTable.uncheckedStatistic)
    linarith
  · intro hcross
    have hne : (f.toTable.uncheckedStatistic : ℝ) ≠ 0 := fun heq =>
      hcross.ne' (h.statistic_eq_zero_iff.1 heq)
    rw [hroot, Int.sign_eq_one_of_pos hcross, Int.cast_one, one_mul]
    exact Real.sqrt_pos.2 (h.statistic_nonneg.lt_of_ne' hne)

/-- Exchanging the rows exchanges positive and negative scores. -/
lemma Nonneg.root_neg_iff (h : f.Nonneg) : (f.root : ℝ) < 0 ↔ f.crossDifference < 0 := by
  have hswap := h.swapRows.root_pos_iff
  rwa [h.root_swapRows, crossDifference_swapRows, neg_pos, neg_pos] at hswap

/-- The cross difference compares the number of joint occurrences with what the margins let
expect. -/
lemma crossDifference_eq (f : Fourfold) :
    f.crossDifference = f.both * f.total - (f.both + f.onlyA) * (f.both + f.onlyB) := by
  rw [crossDifference, total]
  ring

end Fourfold

namespace Tally

variable {ι : Type} [DecidableEq ι]

lemma crossDifference_ofHistory (history : List (List ι)) (a b : ι) :
    (Fourfold.ofHistory history a b).crossDifference =
      cooccurrences history a b * history.length -
        occurrences history a * occurrences history b := by
  obtain ⟨ha, hb, htotal⟩ := Fourfold.margins_ofHistory history a b
  rw [Fourfold.crossDifference_eq, ha, hb, htotal]
  rfl

/-- An item that is nowhere or everywhere says nothing about another one. -/
lemma cooccurrences_mul_length {history : List (List ι)} {a : ι}
    (h : (∀ items ∈ history, a ∉ items) ∨ ∀ items ∈ history, a ∈ items) (b : ι) :
    cooccurrences history a b * history.length = occurrences history a * occurrences history b := by
  rcases h with hnone | hall
  · have ha : occurrences history a = 0 := by
      rw [occurrences, List.countP_eq_zero]
      intro items hitems
      simpa using hnone items hitems
    have hab : cooccurrences history a b = 0 := by
      rw [cooccurrences, List.countP_eq_zero]
      intro items hitems
      simp [hnone items hitems]
    rw [ha, hab, zero_mul, zero_mul]
  · have ha : occurrences history a = history.length := by
      rw [occurrences, List.countP_eq_length]
      intro items hitems
      simpa using hall items hitems
    have hab : cooccurrences history a b = occurrences history b := by
      rw [cooccurrences, occurrences]
      refine List.countP_congr fun items hitems => ?_
      simp [hall items hitems]
    rw [ha, hab, mul_comm]

variable [Ord ι] [TransOrd ι] [LawfulEqOrd ι]

/-- **The sign of the score of two items.**  The score exists, does not depend on which item is
named first, and is positive, zero or negative as the items occur together more often than, as often
as, or less often than independent items would. -/
theorem score_ofHistory_sign (history : List (List ι)) (h : history.length < 2 ^ 63) (a b : ι) :
    ∃ s : ℝ, ((ofHistory history).score a b : Except (Error ℝ) ℝ) = .ok s ∧
      ((ofHistory history).score b a : Except (Error ℝ) ℝ) = .ok s ∧
      (0 < s ↔ history.countP (fun items => a ∈ items) * history.countP (fun items => b ∈ items) <
        history.countP (fun items => a ∈ items ∧ b ∈ items) * history.length) ∧
      (s = 0 ↔ history.countP (fun items => a ∈ items ∧ b ∈ items) * history.length =
        history.countP (fun items => a ∈ items) * history.countP (fun items => b ∈ items)) ∧
      (s < 0 ↔ history.countP (fun items => a ∈ items ∧ b ∈ items) * history.length <
        history.countP (fun items => a ∈ items) * history.countP (fun items => b ∈ items)) ∧
      ((∀ items ∈ history, a ∉ items) ∨ (∀ items ∈ history, a ∈ items) → s = 0) := by
  have hnonneg := Fourfold.nonneg_ofHistory history a b
  have hcross := crossDifference_ofHistory history a b
  have hswap : ((ofHistory history).score b a : Except (Error ℝ) ℝ) =
      .ok (Fourfold.ofHistory history a b).root := by
    rw [score_eq_ok h, Fourfold.ofHistory_swap, hnonneg.root_transpose]
  refine ⟨_, score_eq_ok h a b, hswap, ?_, ?_, ?_, fun hmargin => ?_⟩
  · rw [hnonneg.root_pos_iff, hcross, sub_pos]
    exact_mod_cast Iff.rfl
  · rw [hnonneg.root_eq_zero_iff, hcross, sub_eq_zero]
    exact_mod_cast Iff.rfl
  · rw [hnonneg.root_neg_iff, hcross, sub_neg]
    exact_mod_cast Iff.rfl
  · rw [hnonneg.root_eq_zero_iff, hcross, sub_eq_zero]
    exact_mod_cast cooccurrences_mul_length hmargin b

/-- An item that is in every transaction scores zero with another one, and two items that never meet
have a negative score. -/
theorem score_ofHistory_sign_short :
    [[1, 2], [1, 3]].length < 2 ^ 63 ∧
      ((ofHistory [[1, 2], [1, 3]]).score 1 2 : Except (Error ℝ) ℝ) = .ok 0 ∧
      ∃ s : ℝ, ((ofHistory [[1, 2], [1, 3]]).score 2 3 : Except (Error ℝ) ℝ) = .ok s ∧ s < 0 := by
  have hlength : [[1, 2], [1, 3]].length < 2 ^ 63 := by decide
  obtain ⟨s, hs, -, -, hzero, -⟩ := score_ofHistory_sign _ hlength 1 2
  obtain ⟨r, hr, -, -, -, hneg, -⟩ := score_ofHistory_sign _ hlength 2 3
  rw [hzero.2 (by decide)] at hs
  exact ⟨hlength, hs, r, hr, hneg.2 (by decide)⟩

end Tally

end LikelihoodRatio
