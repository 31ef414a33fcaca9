/-
# Fourfold tables without negative counts

Such a table always has a statistic and a score, and it can be recovered from its marginal counts.
-/
import LikelihoodRatio.Fourfold
import LikelihoodRatio.Proofs.Checks

namespace LikelihoodRatio.Fourfold

open Arithmetic

variable {α : Type}

/-- No count is negative. -/
structure Nonneg (f : Fourfold) : Prop where
  both : 0 ≤ f.both
  onlyA : 0 ≤ f.onlyA
  onlyB : 0 ≤ f.onlyB
  neither : 0 ≤ f.neither

lemma Nonneg.counts {f : Fourfold} (h : f.Nonneg) : ∀ count ∈ f.counts, 0 ≤ count := by
  simp only [Fourfold.counts, List.mem_cons, List.not_mem_nil, or_false]
  rintro count (rfl | rfl | rfl | rfl)
  exacts [h.both, h.onlyA, h.onlyB, h.neither]

lemma nonneg_of_counts {f : Fourfold} (h : ∀ count ∈ f.counts, 0 ≤ count) : f.Nonneg where
  both := h _ (by simp [Fourfold.counts])
  onlyA := h _ (by simp [Fourfold.counts])
  onlyB := h _ (by simp [Fourfold.counts])
  neither := h _ (by simp [Fourfold.counts])

lemma Nonneg.check_counts {f : Fourfold} (h : f.Nonneg) :
    (Check.counts f.counts : Except (Error α) Unit) = .ok () :=
  Check.counts_eq_ok_iff.2 h.counts

/-! ### Exchanging events -/

/-- The table with the events A and B exchanged. -/
def transpose (f : Fourfold) : Fourfold := ⟨f.both, f.onlyB, f.onlyA, f.neither⟩

/-- The table with A exchanged for its absence. -/
def swapRows (f : Fourfold) : Fourfold := ⟨f.onlyB, f.neither, f.both, f.onlyA⟩

/-- The table with B exchanged for its absence. -/
def swapCols (f : Fourfold) : Fourfold := ⟨f.onlyA, f.both, f.neither, f.onlyB⟩

lemma Nonneg.transpose {f : Fourfold} (h : f.Nonneg) : f.transpose.Nonneg :=
  ⟨h.both, h.onlyB, h.onlyA, h.neither⟩

lemma Nonneg.swapRows {f : Fourfold} (h : f.Nonneg) : f.swapRows.Nonneg :=
  ⟨h.onlyB, h.neither, h.both, h.onlyA⟩

lemma Nonneg.swapCols {f : Fourfold} (h : f.Nonneg) : f.swapCols.Nonneg :=
  ⟨h.onlyA, h.both, h.neither, h.onlyB⟩

/-! ### Marginal counts -/

/-- The number of observations. -/
def total (f : Fourfold) : Int := f.both + f.onlyA + f.onlyB + f.neither

lemma Nonneg.eq_zero {f : Fourfold} (h : f.Nonneg) (htotal : f.total = 0) :
    f = ⟨0, 0, 0, 0⟩ := by
  obtain ⟨both, onlyA, onlyB, neither⟩ := f
  obtain ⟨hboth, honlyA, honlyB, hneither⟩ := h
  simp only [total, mk.injEq] at *
  omega

/-- A table that fits into 64 bits is the one that its marginal counts determine. -/
lemma ofMarginals_margins {f : Fourfold} (h : f.Nonneg) (hmax : f.total ≤ largestCount) :
    (ofMarginals f.both (f.both + f.onlyA) (f.both + f.onlyB) f.total : Except (Error α) Fourfold) =
      .ok f := by
  obtain ⟨hboth, honlyA, honlyB, hneither⟩ := h
  unfold total at *
  have hgiven : (Check.counts [f.both, f.both + f.onlyA, f.both + f.onlyB,
      f.both + f.onlyA + f.onlyB + f.neither] : Except (Error α) Unit) = .ok () := by
    rw [Check.counts_eq_ok_iff]
    simp only [List.mem_cons, List.not_mem_nil, or_false]
    rintro count (rfl | rfl | rfl | rfl) <;> omega
  have hpartial : (Check.counts [f.both, f.onlyA, f.onlyB] : Except (Error α) Unit) = .ok () := by
    rw [Check.counts_eq_ok_iff]
    simp only [List.mem_cons, List.not_mem_nil, or_false]
    rintro count (rfl | rfl | rfl) <;> assumption
  have hcells : (Check.counts [f.both, f.onlyA, f.onlyB, f.neither] : Except (Error α) Unit) =
      .ok () := Nonneg.check_counts ⟨hboth, honlyA, honlyB, hneither⟩
  have hA : f.both + f.onlyA - f.both = f.onlyA := by omega
  have hB : f.both + f.onlyB - f.both = f.onlyB := by omega
  have hneither' : f.both + f.onlyA + f.onlyB + f.neither - (f.both + f.onlyA) -
      (f.both + f.onlyB) + f.both = f.neither := by omega
  -- The other three cells are not negative, so that the last one is at most the total.
  have hrange : ¬(f.neither < smallestCount ∨ largestCount < f.neither) := by
    unfold smallestCount
    omega
  simp only [ofMarginals, hgiven, hA, hB, hpartial, hneither', hrange, hcells, bind, Except.bind,
    pure, Except.pure, if_false]

/-! ### Statistic and score -/

section Score

variable [Arithmetic α]

/-- The root of the statistic, with the sign of the association. -/
def root (f : Fourfold) : α :=
  let g : α := f.toTable.uncheckedStatistic
  if g ≤ 0.0 then 0.0 else if (f.rateWithoutA : α) < f.rateWithA then sqrt g else -sqrt g

lemma statistic_eq_ok {f : Fourfold} (h : f.Nonneg) :
    (f.statistic : Except (Error α) α) = .ok f.toTable.uncheckedStatistic := by
  rw [statistic, h.check_counts]
  rfl

lemma score_eq_ok {f : Fourfold} (h : f.Nonneg) :
    (f.score : Except (Error α) α) = .ok f.root := by
  rw [score, statistic_eq_ok h, root]
  simp only [bind, Except.bind, pure, Except.pure]
  split_ifs <;> rfl

end Score

end LikelihoodRatio.Fourfold
