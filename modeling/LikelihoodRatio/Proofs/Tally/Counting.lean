/-
# Counting over a history

A tally sees its history one transaction at a time, with the items of each transaction sorted and
freed of repetitions.  This file shows that its counters are counts over the history as it was
given.

The step is `itemCount_observe` and `pairCount_observe`: one transaction raises the counter of an
item, or of two items, by one if it holds them, and leaves all other counters alone.  The run is
`counts_ofHistory`.
-/
import LikelihoodRatio.Proofs.Tally.Order
import Mathlib.Data.List.Induction

namespace LikelihoodRatio.Tally

open Std (OrientedCmp TransCmp LawfulEqCmp TransOrd LawfulEqOrd)

/-! ### One counter for each key -/

section Bump

variable {κ : Type} {cmp : κ → κ → Ordering} [TransCmp cmp] [LawfulEqCmp cmp]

lemma mem_foldl_bump (keys : List κ) (m : Std.TreeMap κ Nat cmp) (a : κ) :
    a ∈ keys.foldl bump m ↔ a ∈ m ∨ a ∈ keys := by
  induction keys generalizing m with
  | nil => simp
  | cons k keys ih =>
    rw [List.foldl_cons, ih, bump, Std.TreeMap.mem_insert, List.mem_cons,
      LawfulEqCmp.compare_eq_iff_eq]
    constructor
    · rintro ((rfl | hm) | hk)
      · exact Or.inr (Or.inl rfl)
      · exact Or.inl hm
      · exact Or.inr (Or.inr hk)
    · rintro (hm | rfl | hk)
      · exact Or.inl (Or.inr hm)
      · exact Or.inl (Or.inl rfl)
      · exact Or.inr hk

variable [BEq κ] [LawfulBEq κ]

lemma getD_bump (m : Std.TreeMap κ Nat cmp) (k a : κ) :
    (bump m k).getD a 0 = m.getD a 0 + if k == a then 1 else 0 := by
  by_cases h : k = a
  · subst h
    simp [bump]
  · have hne : cmp k a ≠ .eq := fun heq => h (LawfulEqCmp.eq_of_compare heq)
    simp [bump, Std.TreeMap.getD_insert, hne, h]

/-- The counter of a key rises as often as the key comes. -/
lemma getD_foldl_bump (keys : List κ) (m : Std.TreeMap κ Nat cmp) (a : κ) :
    (keys.foldl bump m).getD a 0 = m.getD a 0 + keys.count a := by
  induction keys generalizing m with
  | nil => simp
  | cons k keys ih =>
    rw [List.foldl_cons, ih, getD_bump, List.count_cons]
    omega

end Bump

/-! ### The items and the pairs of one transaction -/

section Transaction

variable {ι : Type}

lemma mem_of_mem_pairsOf {items : List ι} {a b : ι} (h : (a, b) ∈ pairsOf items) :
    a ∈ items ∧ b ∈ items := by
  induction items with
  | nil => simp [pairsOf] at h
  | cons c items ih =>
    simp only [pairsOf, List.mem_append, List.mem_map, Prod.mk.injEq] at h
    rcases h with ⟨d, hd, rfl, rfl⟩ | h
    · exact ⟨List.mem_cons_self, List.mem_cons_of_mem _ hd⟩
    · exact ⟨List.mem_cons_of_mem _ (ih h).1, List.mem_cons_of_mem _ (ih h).2⟩

lemma nodup_pairsOf {items : List ι} (h : items.Nodup) : (pairsOf items).Nodup := by
  induction items with
  | nil => exact List.nodup_nil
  | cons a items ih =>
    obtain ⟨ha, hitems⟩ := List.nodup_cons.1 h
    refine List.Nodup.append (hitems.map fun _ _ hbc => congrArg Prod.snd hbc) (ih hitems) ?_
    rintro ⟨b, c⟩ hfirst hlater
    obtain ⟨d, -, hd⟩ := List.mem_map.1 hfirst
    obtain ⟨rfl, rfl⟩ := Prod.mk.inj hd
    exact ha (mem_of_mem_pairsOf hlater).1

variable [Ord ι] [TransOrd ι]

/-- Two items of a rising list are paired once, the smaller one first, and no item is paired with
itself. -/
lemma mem_pairsOf {items : List ι} (h : Rising compare items) {a b : ι} :
    (a, b) ∈ pairsOf items ↔ compare a b = .lt ∧ a ∈ items ∧ b ∈ items := by
  induction items with
  | nil => simp [pairsOf]
  | cons c items ih =>
    obtain ⟨hc, hitems⟩ := List.pairwise_cons.1 h
    -- The pairs with `c` are those in which it is the smaller item: nothing later is below it.
    simp only [pairsOf, List.mem_append, List.mem_map, Prod.mk.injEq, ih hitems, List.mem_cons]
    constructor
    · rintro (⟨d, hd, rfl, rfl⟩ | ⟨hlt, ha, hb⟩)
      · exact ⟨hc _ hd, Or.inl rfl, Or.inr hd⟩
      · exact ⟨hlt, Or.inr ha, Or.inr hb⟩
    · rintro ⟨hlt, rfl | ha, rfl | hb⟩
      · exact absurd hlt (OrientedCmp.not_lt_of_lt hlt)
      · exact Or.inl ⟨b, hb, rfl, rfl⟩
      · exact absurd (hc a ha) (OrientedCmp.not_lt_of_lt hlt)
      · exact Or.inr ⟨hlt, ha, hb⟩

lemma rising_distinct (items : List ι) : Rising compare (distinct items) :=
  Std.TreeSet.ordered_toList

variable [LawfulEqOrd ι]

@[simp] lemma mem_distinct {items : List ι} {a : ι} : a ∈ distinct items ↔ a ∈ items := by
  classical
  rw [distinct, Std.TreeSet.mem_toList, Std.TreeSet.mem_ofList, List.contains_iff_mem]

/-- A set may hand out the items of a transaction in any order.  Sorted, they are `distinct`. -/
theorem mergeSort_eq_distinct {unique items : List ι} (hunique : unique.Nodup)
    (h : ∀ a, a ∈ unique ↔ a ∈ items) :
    unique.mergeSort (fun a b => (compare a b).isLE) = distinct items := by
  refine eq_of_rising (rising_mergeSort ?_) (rising_distinct items) fun a => by simp [h]
  exact hunique.imp fun hne heq => hne (LawfulEqCmp.eq_of_compare heq)

variable [DecidableEq ι]

lemma count_distinct (items : List ι) (a : ι) :
    (distinct items).count a = if a ∈ items then 1 else 0 := by
  rw [(rising_distinct items).nodup.count]
  simp only [mem_distinct]

lemma count_pairsOf_distinct (items : List ι) {a b : ι} (hab : compare a b = .lt) :
    (pairsOf (distinct items)).count (a, b) = if a ∈ items ∧ b ∈ items then 1 else 0 := by
  rw [(nodup_pairsOf (rising_distinct items).nodup).count]
  simp only [mem_pairsOf (rising_distinct items), hab, mem_distinct, true_and]

end Transaction

variable {ι : Type} [Ord ι]

/-! ### One transaction -/

section Step

lemma pairCount_of_lt (t : Tally ι) {a b : ι} (hab : compare a b = .lt) :
    t.pairCount a b = t.pairs.getD (a, b) 0 := by
  rw [pairCount, hab]

variable [LawfulEqOrd ι]

@[simp] lemma pairCount_self (t : Tally ι) (a : ι) : t.pairCount a a = t.itemCount a := by
  have hself : compare a a = .eq := Std.ReflOrd.compare_self
  rw [pairCount, hself]

variable [TransOrd ι]

/-- Two items are looked up under the same key whichever of them is named first. -/
lemma pairCount_comm (t : Tally ι) (a b : ι) : t.pairCount a b = t.pairCount b a := by
  rw [pairCount, pairCount]
  cases hab : compare a b with
  | lt => rw [OrientedCmp.gt_of_lt hab]
  | eq =>
    obtain rfl := LawfulEqCmp.eq_of_compare hab
    rw [hab]
  | gt => rw [OrientedCmp.lt_of_gt hab]

/-- A pair is known to a tally after a transaction if it was before, or if the transaction holds
both items. -/
lemma mem_pairs_observe (t : Tally ι) (items : List ι) (a b : ι) :
    (a, b) ∈ (t.observe items).pairs ↔
      (a, b) ∈ t.pairs ∨ compare a b = .lt ∧ a ∈ items ∧ b ∈ items := by
  rw [observe, mem_foldl_bump, mem_pairsOf (rising_distinct items), mem_distinct, mem_distinct]

variable [DecidableEq ι]

/-- A transaction counts once for each item that it holds. -/
lemma itemCount_observe (t : Tally ι) (items : List ι) (a : ι) :
    (t.observe items).itemCount a = t.itemCount a + if a ∈ items then 1 else 0 := by
  rw [itemCount, observe, getD_foldl_bump, count_distinct, itemCount]

lemma pairCount_observe_of_lt (t : Tally ι) (items : List ι) {a b : ι} (hab : compare a b = .lt) :
    (t.observe items).pairCount a b =
      t.pairCount a b + if a ∈ items ∧ b ∈ items then 1 else 0 := by
  rw [pairCount_of_lt _ hab, pairCount_of_lt _ hab, observe, getD_foldl_bump,
    count_pairsOf_distinct items hab]

/-- A transaction counts once for any two items that it holds. -/
lemma pairCount_observe (t : Tally ι) (items : List ι) (a b : ι) :
    (t.observe items).pairCount a b =
      t.pairCount a b + if a ∈ items ∧ b ∈ items then 1 else 0 := by
  cases hab : compare a b with
  | lt => exact pairCount_observe_of_lt t items hab
  | eq =>
    obtain rfl := LawfulEqCmp.eq_of_compare hab
    simp only [pairCount_self, itemCount_observe, and_self]
  | gt =>
    -- The key has the smaller item first, so the two are named the other way round.
    rw [pairCount_comm, pairCount_observe_of_lt t items (OrientedCmp.lt_of_gt hab),
      pairCount_comm t]
    simp only [and_comm]

end Step

/-! ### A history -/

section Run

variable [DecidableEq ι]

/-- In how many transactions an item occurs. -/
def occurrences (history : List (List ι)) (a : ι) : Nat :=
  history.countP fun items => a ∈ items

/-- In how many transactions two items occur together. -/
def cooccurrences (history : List (List ι)) (a b : ι) : Nat :=
  history.countP fun items => a ∈ items ∧ b ∈ items

/-- A tally that has counted a history, with nothing lost and nothing counted twice. -/
structure Counts (history : List (List ι)) (t : Tally ι) : Prop where
  transactions_eq : t.transactions = history.length
  itemCount_eq : ∀ a, t.itemCount a = occurrences history a
  pairCount_eq : ∀ a b, t.pairCount a b = cooccurrences history a b
  /-- The pairs that are known are those that occur, the smaller item first. -/
  mem_pairs_iff : ∀ a b,
    (a, b) ∈ t.pairs ↔ compare a b = .lt ∧ ∃ items ∈ history, a ∈ items ∧ b ∈ items

variable [TransOrd ι]

lemma counts_empty : Counts [] (empty : Tally ι) where
  transactions_eq := rfl
  itemCount_eq _ := Std.TreeMap.getD_emptyc
  pairCount_eq a b := by
    rw [pairCount]
    cases compare a b <;> exact Std.TreeMap.getD_emptyc
  mem_pairs_iff a b := by simp [empty]

variable [LawfulEqOrd ι]

lemma Counts.observe {history : List (List ι)} {t : Tally ι} (h : Counts history t)
    (items : List ι) : Counts (history ++ [items]) (t.observe items) where
  transactions_eq := by simp [Tally.observe, h.transactions_eq]
  itemCount_eq a := by
    rw [itemCount_observe, h.itemCount_eq, occurrences, occurrences, List.countP_append]
    simp
  pairCount_eq a b := by
    rw [pairCount_observe, h.pairCount_eq, cooccurrences, cooccurrences, List.countP_append]
    simp
  mem_pairs_iff a b := by
    rw [mem_pairs_observe, h.mem_pairs_iff, ← and_or_left]
    simp [or_and_right, exists_or]

/-- What is true of the empty tally and is kept by every transaction is true of a tally after any
history. -/
lemma counts_ofHistory (history : List (List ι)) : Counts history (ofHistory history) := by
  -- The last transaction is the one that was observed last, hence the induction from the end.
  induction history using List.reverseRecOn with
  | nil => exact counts_empty
  | append_singleton history items ih =>
    rw [ofHistory, List.foldl_append]
    exact ih.observe items

end Run

end LikelihoodRatio.Tally
