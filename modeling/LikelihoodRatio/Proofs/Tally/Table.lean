/-
# The fourfold table of two items

The tally of a history knows the fourfold table of any two items, seen or not, equal or not: it is
the table whose cells are counted over the transactions (`table_ofHistory`).  The tally keeps
marginal counts only, so that the cells could come out negative; they do not because the marginal
counts of one history belong together (`ofMarginals_margins`).
-/
import LikelihoodRatio.Proofs.Fourfold.Basic
import LikelihoodRatio.Proofs.Tally.Counting
import Mathlib.Algebra.Group.Nat.Defs

namespace LikelihoodRatio

open Std (TransOrd LawfulEqOrd)

variable {ι : Type} [DecidableEq ι]

namespace Fourfold

/-- The fourfold table of two items in a history, each cell counted over the transactions. -/
def ofHistory (history : List (List ι)) (a b : ι) : Fourfold where
  both := history.countP fun items => a ∈ items ∧ b ∈ items
  onlyA := history.countP fun items => a ∈ items ∧ b ∉ items
  onlyB := history.countP fun items => a ∉ items ∧ b ∈ items
  neither := history.countP fun items => a ∉ items ∧ b ∉ items

lemma nonneg_ofHistory (history : List (List ι)) (a b : ι) : (ofHistory history a b).Nonneg where
  both := Int.natCast_nonneg _
  onlyA := Int.natCast_nonneg _
  onlyB := Int.natCast_nonneg _
  neither := Int.natCast_nonneg _

lemma ofHistory_swap (history : List (List ι)) (a b : ι) :
    ofHistory history b a = (ofHistory history a b).transpose := by
  simp only [ofHistory, transpose, and_comm]

/-- What satisfies `p` satisfies `q` besides or does not. -/
lemma countP_and_add_countP_and_not {β : Type} (xs : List β) (p q : β → Prop) [DecidablePred p]
    [DecidablePred q] :
    xs.countP (fun x => p x ∧ q x) + xs.countP (fun x => p x ∧ ¬q x) =
      xs.countP (fun x => p x) := by
  induction xs with
  | nil => rfl
  | cons x xs ih =>
    simp only [List.countP_cons, decide_eq_true_eq]
    by_cases hp : p x <;> by_cases hq : q x <;> simp only [hp, hq] <;> grind

/-- The margins of the table are the counters of a tally. -/
lemma margins_ofHistory (history : List (List ι)) (a b : ι) :
    (ofHistory history a b).both + (ofHistory history a b).onlyA = Tally.occurrences history a ∧
      (ofHistory history a b).both + (ofHistory history a b).onlyB = Tally.occurrences history b ∧
      (ofHistory history a b).total = history.length := by
  have hrow := countP_and_add_countP_and_not history (a ∈ ·) (b ∈ ·)
  have hcol := countP_and_add_countP_and_not history (b ∈ ·) (a ∈ ·)
  have hrest := countP_and_add_countP_and_not history (a ∉ ·) (b ∈ ·)
  have hall := List.length_eq_countP_add_countP (l := history) (fun items => a ∈ items)
  simp only [and_comm] at hcol
  simp only [decide_eq_true_eq] at hall
  simp only [ofHistory, Tally.occurrences, total]
  omega

end Fourfold

namespace Tally

variable [Ord ι] [TransOrd ι] [LawfulEqOrd ι]

/-- The table of two items never fails while the number of transactions fits into 64 bits. -/
lemma table_eq_ok {α : Type} {history : List (List ι)} (h : history.length < 2 ^ 63) (a b : ι) :
    ((ofHistory history).table a b : Except (Error α) Fourfold) =
      .ok (Fourfold.ofHistory history a b) := by
  have hcounts := counts_ofHistory history
  obtain ⟨ha, hb, htotal⟩ := Fourfold.margins_ofHistory history a b
  have hmax : (Fourfold.ofHistory history a b).total ≤ largestCount := by
    rw [htotal, largestCount]
    omega
  -- The counters that the tally keeps are the margins of the table that is counted directly.
  rw [table, hcounts.pairCount_eq, hcounts.itemCount_eq, hcounts.itemCount_eq,
    hcounts.transactions_eq, ← ha, ← hb, ← htotal]
  exact Fourfold.ofMarginals_margins (Fourfold.nonneg_ofHistory history a b) hmax

/-- **The fourfold table of two items.**  Its cells are the numbers of transactions with both
items, with the first only, with the second only, and with neither; they add up to the number of
transactions, and exchanging the items transposes the table. -/
theorem table_ofHistory {α : Type} (history : List (List ι)) (h : history.length < 2 ^ 63)
    (a b : ι) :
    ∃ f : Fourfold,
      ((ofHistory history).table a b : Except (Error α) Fourfold) = .ok f ∧
      f.both = history.countP (fun items => a ∈ items ∧ b ∈ items) ∧
      f.onlyA = history.countP (fun items => a ∈ items ∧ b ∉ items) ∧
      f.onlyB = history.countP (fun items => a ∉ items ∧ b ∈ items) ∧
      f.neither = history.countP (fun items => a ∉ items ∧ b ∉ items) ∧
      (∀ count ∈ f.counts, 0 ≤ count) ∧
      f.both + f.onlyA + f.onlyB + f.neither = (ofHistory history).transactions ∧
      ((ofHistory history).table b a : Except (Error α) Fourfold) =
        .ok ⟨f.both, f.onlyB, f.onlyA, f.neither⟩ := by
  refine ⟨Fourfold.ofHistory history a b, table_eq_ok h a b, rfl, rfl, rfl, rfl, ?_, ?_, ?_⟩
  · exact (Fourfold.nonneg_ofHistory history a b).counts
  · rw [(counts_ofHistory history).transactions_eq]
    exact (Fourfold.margins_ofHistory history a b).2.2
  · rw [table_eq_ok h b a, Fourfold.ofHistory_swap, Fourfold.transpose]

/-- An item that comes twice in a transaction is in one cell of it. -/
theorem table_ofHistory_repeated :
    [[3, 1, 3], [1, 2], [2]].length < 2 ^ 63 ∧
      ∃ f : Fourfold,
        ((ofHistory [[3, 1, 3], [1, 2], [2]]).table 1 3 : Except (Error Float) Fourfold) = .ok f ∧
        f.both = 1 ∧ f.onlyA = 1 ∧ f.onlyB = 0 ∧ f.neither = 1 := by
  have hlength : [[3, 1, 3], [1, 2], [2]].length < 2 ^ 63 := by decide
  obtain ⟨f, hf, hboth, honlyA, honlyB, hneither, -⟩ := table_ofHistory _ hlength 1 3
  exact ⟨hlength, f, hf, hboth, honlyA, honlyB, hneither⟩

end Tally

end LikelihoodRatio
