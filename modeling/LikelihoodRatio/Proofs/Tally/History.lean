/-
# What a tally keeps of a history

A tally answers every query from the item sets of the transactions alone.  Two histories with the
same item sets, each as often as in the other, therefore cannot be told apart by any query, however
the transactions are ordered and however the items in them are ordered or repeated
(`counters_ofHistory`).
-/
import LikelihoodRatio.Proofs.Tally.Ranking
import Mathlib.Data.Set.Defs

namespace LikelihoodRatio.Tally

open Std (TransOrd LawfulEqOrd)

variable {ι : Type}

/-- The items of a transaction, without order and repetition. -/
def itemSet (items : List ι) : Set ι := {a | a ∈ items}

/-- Two histories have the same item sets, each equally often. -/
def SameItemSets (history other : List (List ι)) : Prop :=
  (history.map itemSet).Perm (other.map itemSet)

/-- What can be told from the item sets is counted alike in both histories. -/
lemma SameItemSets.countP_eq {history other : List (List ι)} (h : SameItemSets history other)
    {p : List ι → Bool} (hp : ∀ xs ys, itemSet xs = itemSet ys → p xs = p ys) :
    history.countP p = other.countP p := by
  classical
  -- What `p` says of a transaction is said by `q` of its item set.
  let q : Set ι → Bool := fun s => decide (∃ items, itemSet items = s ∧ p items = true)
  have hq : p = q ∘ itemSet := by
    funext items
    rw [Bool.eq_iff_iff, Function.comp_apply, decide_eq_true_eq]
    exact ⟨fun hitems => ⟨items, rfl, hitems⟩, fun ⟨xs, hxs, hpxs⟩ => hp xs items hxs ▸ hpxs⟩
  rw [hq, ← List.countP_map, ← List.countP_map, List.Perm.countP_eq q h]

lemma SameItemSets.length_eq {history other : List (List ι)} (h : SameItemSets history other) :
    history.length = other.length := by
  simpa using List.Perm.length_eq h

section Counts

variable [DecidableEq ι]

lemma SameItemSets.occurrences_eq {history other : List (List ι)}
    (h : SameItemSets history other) (a : ι) : occurrences history a = occurrences other a :=
  h.countP_eq fun xs ys hxs => by
    have ha : a ∈ xs ↔ a ∈ ys := Set.ext_iff.1 hxs a
    simp only [ha]

lemma SameItemSets.cooccurrences_eq {history other : List (List ι)}
    (h : SameItemSets history other) (a b : ι) :
    cooccurrences history a b = cooccurrences other a b :=
  h.countP_eq fun xs ys hxs => by
    have ha : a ∈ xs ↔ a ∈ ys := Set.ext_iff.1 hxs a
    have hb : b ∈ xs ↔ b ∈ ys := Set.ext_iff.1 hxs b
    simp only [ha, hb]

lemma cooccurrences_pos_iff {history : List (List ι)} {a b : ι} :
    0 < cooccurrences history a b ↔ ∃ items ∈ history, a ∈ items ∧ b ∈ items := by
  rw [cooccurrences, List.countP_pos_iff]
  simp only [decide_eq_true_eq]

end Counts

variable [Ord ι]

/-- Two tallies answer every query alike, and rank alike in whatever order they hand out their
pairs. -/
structure SameAnswers (t other : Tally ι) : Prop where
  transactions_eq : t.transactions = other.transactions
  itemCount_eq : ∀ a, t.itemCount a = other.itemCount a
  pairCount_eq : ∀ a b, t.pairCount a b = other.pairCount a b
  table_eq : ∀ (α : Type) (a b : ι),
    (t.table a b : Except (Error α) Fourfold) = other.table a b
  score_eq : ∀ (α : Type) [Arithmetic α] (a b : ι),
    (t.score a b : Except (Error α) α) = other.score a b
  topAmong_eq : ∀ pairs otherPairs, pairs.Perm t.pairs.keys → otherPairs.Perm other.pairs.keys →
    ∀ limit parallel otherParallel,
      t.topAmong pairs limit parallel = other.topAmong otherPairs limit otherParallel

variable [DecidableEq ι]

/-- The ranking of a history can be told from the item sets. -/
lemma IsRanking.congr {history other : List (List ι)} (h : SameItemSets history other)
    (hscore : ∀ a b : ι, ((ofHistory history).score a b : Except (Error Float) Float) =
      (ofHistory other).score a b) {ranking : List (Association ι)}
    (hranking : IsRanking history ranking) : IsRanking other ranking where
  nodup_pairs := hranking.nodup_pairs
  mem_pairs_iff a b := by
    rw [hranking.mem_pairs_iff, ← cooccurrences_pos_iff, ← cooccurrences_pos_iff,
      h.cooccurrences_eq]
  score_eq x hx := by rw [← hscore, hranking.score_eq x hx]
  sorted := hranking.sorted

variable [TransOrd ι] [LawfulEqOrd ι]

/-- Histories with the same item sets cannot be told apart. -/
lemma SameItemSets.sameAnswers {history other : List (List ι)}
    (h : SameItemSets history other) (hlength : history.length < 2 ^ 63) :
    SameAnswers (ofHistory history) (ofHistory other) := by
  have hcounts := counts_ofHistory history
  have hcounts' := counts_ofHistory other
  have htransactions : (ofHistory history).transactions = (ofHistory other).transactions := by
    rw [hcounts.transactions_eq, hcounts'.transactions_eq, h.length_eq]
  have hitems (a : ι) : (ofHistory history).itemCount a = (ofHistory other).itemCount a := by
    rw [hcounts.itemCount_eq, hcounts'.itemCount_eq, h.occurrences_eq]
  have hpairs (a b : ι) : (ofHistory history).pairCount a b = (ofHistory other).pairCount a b := by
    rw [hcounts.pairCount_eq, hcounts'.pairCount_eq, h.cooccurrences_eq]
  have htable (α : Type) (a b : ι) :
      ((ofHistory history).table a b : Except (Error α) Fourfold) =
        (ofHistory other).table a b := by
    rw [table, table, htransactions, hitems, hitems, hpairs]
  have hscore (α : Type) [Arithmetic α] (a b : ι) :
      ((ofHistory history).score a b : Except (Error α) α) = (ofHistory other).score a b := by
    rw [score, score, htable]
  refine ⟨htransactions, hitems, hpairs, htable, hscore, ?_⟩
  intro pairs otherPairs hkeys hkeys' limit parallel otherParallel
  -- The keys of the two maps differ in their order, so the lists are compared through the ranking.
  have hlength' : other.length < 2 ^ 63 := h.length_eq ▸ hlength
  have hranking := (isRanking_ranked hlength hkeys).congr h (hscore Float)
  rw [topAmong_eq_ok hlength, topAmong_eq_ok hlength',
    hranking.unique (isRanking_ranked hlength' hkeys')]

/-- **What a tally counts.**  After any history a tally knows the number of transactions, the
number of those that hold an item, and the number of those that hold two items; the order in which
a set hands out the items of a transaction does not matter.  Histories with the same item sets are
answered alike. -/
theorem counters_ofHistory (history : List (List ι)) (h : history.length < 2 ^ 63) :
    (ofHistory history).transactions = history.length ∧
      (∀ a, (ofHistory history).itemCount a = history.countP fun items => a ∈ items) ∧
      (∀ a b, (ofHistory history).pairCount a b =
        history.countP fun items => a ∈ items ∧ b ∈ items) ∧
      (∀ a b, (ofHistory history).pairCount a b = (ofHistory history).pairCount b a) ∧
      (∀ a, (ofHistory history).pairCount a a = (ofHistory history).itemCount a) ∧
      (∀ items unique : List ι, unique.Nodup → (∀ a, a ∈ unique ↔ a ∈ items) →
        unique.mergeSort (fun a b => (compare a b).isLE) = distinct items) ∧
      ∀ other, SameItemSets history other → SameAnswers (ofHistory history) (ofHistory other) := by
  have hcounts := counts_ofHistory history
  exact ⟨hcounts.transactions_eq, hcounts.itemCount_eq, hcounts.pairCount_eq,
    pairCount_comm _, pairCount_self _, fun _ _ => mergeSort_eq_distinct,
    fun _ hsame => hsame.sameAnswers h⟩

/-- The transactions may come in another order, and so may the items in them. -/
theorem counters_ofHistory_reordered :
    [[2, 1, 2], [1], []].length < 2 ^ 63 ∧
      (ofHistory [[2, 1, 2], [1], []]).transactions = 3 ∧
      (ofHistory [[2, 1, 2], [1], []]).itemCount 1 = 2 ∧
      (ofHistory [[2, 1, 2], [1], []]).pairCount 2 1 = 1 ∧
      SameAnswers (ofHistory [[2, 1, 2], [1], []]) (ofHistory [[], [1], [1, 2]]) := by
  have hlength : [[2, 1, 2], [1], []].length < 2 ^ 63 := by decide
  obtain ⟨htransactions, hitems, hpairs, -, -, -, hsame⟩ :=
    counters_ofHistory [[2, 1, 2], [1], []] hlength
  refine ⟨hlength, htransactions, hitems 1, hpairs 2 1, hsame _ ?_⟩
  have hset : itemSet [2, 1, 2] = itemSet [1, 2] := by
    refine Set.ext fun a => ?_
    change a ∈ [2, 1, 2] ↔ a ∈ [1, 2]
    simp only [List.mem_cons, List.not_mem_nil, or_false]
    omega
  simp only [SameItemSets, List.map_cons, List.map_nil, hset]
  exact List.reverse_perm [itemSet [], itemSet [1], itemSet [1, 2]]

end LikelihoodRatio.Tally
