/-
# Ranking the pairs of a history

The pairs that occur in a history have one ranking (`IsRanking`).  It does not depend on the order
in which the tally hands out its pairs, since no two of them tie: pairs of one score are told apart
by their items.  The highest ranking associations are a front part of it (`top_ofHistory`).
-/
import LikelihoodRatio.Proofs.Binary64.Rank
import LikelihoodRatio.Proofs.Tally.Table

namespace LikelihoodRatio

open Std (OrientedCmp TransCmp LawfulEqCmp TransOrd LawfulEqOrd)

variable {ι : Type} [Ord ι]

/-- The two items of an association. -/
def Association.pair (x : Association ι) : ι × ι := (x.first, x.second)

namespace Tally

/-! ### The order of associations -/

/-- An association of a higher score comes first, where zero is higher than negative zero.  Of two
associations with one score the one with the smaller pair of items comes first. -/
def Precedes (x y : Association ι) : Prop :=
  Binary64.TotalLT y.score x.score ∨
    x.score = y.score ∧
      (compare x.first y.first = .lt ∨ x.first = y.first ∧ compare x.second y.second = .lt)

instance transCmp_pairOrder_pair [TransOrd ι] :
    TransCmp fun x y : Association ι => pairOrder x.pair y.pair where
  eq_swap := OrientedCmp.eq_swap
  isLE_trans := TransCmp.isLE_trans

instance transCmp_rankOrder [TransOrd ι] : TransCmp (@rankOrder ι _) :=
  inferInstanceAs (TransCmp (compareLex
    (fun x y : Association ι => compareOn (fun z : Association ι => Binary.rank z.score) y x)
    (fun x y : Association ι => pairOrder x.pair y.pair)))

lemma pair_eq_of_rankOrder_eq [LawfulEqOrd ι] {x y : Association ι} (h : rankOrder x y = .eq) :
    x.pair = y.pair := by
  rw [rankOrder, Ordering.then_eq_eq] at h
  exact LawfulEqCmp.eq_of_compare h.2

lemma rankOrder_eq_lt_iff [LawfulEqOrd ι] {x y : Association ι} :
    rankOrder x y = .lt ↔ Precedes x y := by
  rw [rankOrder, Ordering.then_eq_lt, Precedes, pairOrder_eq_lt_iff, Int.compare_eq_lt,
    Int.compare_eq_eq, Binary64.rank_lt_iff, Binary64.rank_inj, eq_comm]

/-! ### The ranking of a history -/

/-- All pairs that occur in a history, with their scores and in their order. -/
structure IsRanking (history : List (List ι)) (ranking : List (Association ι)) : Prop where
  /-- No pair is listed twice. -/
  nodup_pairs : (ranking.map Association.pair).Nodup
  /-- The pairs are those that occur in a transaction, the smaller item first. -/
  mem_pairs_iff : ∀ a b, (a, b) ∈ ranking.map Association.pair ↔
    compare a b = .lt ∧ ∃ items ∈ history, a ∈ items ∧ b ∈ items
  /-- Each pair has its score. -/
  score_eq : ∀ x ∈ ranking, (ofHistory history).score x.first x.second = .ok x.score
  /-- Each association precedes all later ones. -/
  sorted : ranking.Pairwise Precedes

lemma IsRanking.rising [LawfulEqOrd ι] {history : List (List ι)} {ranking : List (Association ι)}
    (h : IsRanking history ranking) : Rising rankOrder ranking :=
  h.sorted.imp rankOrder_eq_lt_iff.2

lemma IsRanking.subset {history : List (List ι)} {ranking other : List (Association ι)}
    (h : IsRanking history ranking) (hother : IsRanking history other) : ranking ⊆ other := by
  intro x hx
  have hpair : x.pair ∈ other.map Association.pair :=
    (hother.mem_pairs_iff _ _).2 ((h.mem_pairs_iff _ _).1 (List.mem_map_of_mem hx))
  obtain ⟨y, hy, hxy⟩ := List.mem_map.1 hpair
  obtain ⟨hfirst, hsecond⟩ := Prod.mk.inj hxy
  have hscore : x.score = y.score := by
    have hx' := h.score_eq x hx
    rw [← hfirst, ← hsecond, hother.score_eq y hy] at hx'
    exact (Except.ok.inj hx').symm
  cases x
  cases y
  simp only at hfirst hsecond hscore
  subst hfirst hsecond hscore
  exact hy

variable [TransOrd ι] [LawfulEqOrd ι]

/-- A history has at most one ranking. -/
lemma IsRanking.unique {history : List (List ι)} {ranking other : List (Association ι)}
    (h : IsRanking history ranking) (hother : IsRanking history other) : other = ranking :=
  eq_of_rising hother.rising h.rising fun _ =>
    ⟨fun hx => hother.subset h hx, fun hx => h.subset hother hx⟩

/-! ### Scores -/

variable [DecidableEq ι]

/-- The association of a pair of items in a history. -/
def associate (history : List (List ι)) (pair : ι × ι) : Association ι :=
  ⟨pair.1, pair.2, (Fourfold.ofHistory history pair.1 pair.2).root⟩

lemma score_eq_ok {α : Type} [Arithmetic α] {history : List (List ι)}
    (h : history.length < 2 ^ 63) (a b : ι) :
    ((ofHistory history).score a b : Except (Error α) α) =
      .ok (Fourfold.ofHistory history a b).root := by
  rw [score, table_eq_ok h]
  exact Fourfold.score_eq_ok (Fourfold.nonneg_ofHistory history a b)

lemma association_eq_ok {history : List (List ι)} (h : history.length < 2 ^ 63) (pair : ι × ι) :
    (ofHistory history).association pair = .ok (associate history pair) := by
  rw [association, score_eq_ok h]
  rfl

/-- Nothing that is known of the pairs is left out when they are scored and sorted. -/
lemma topAmong_eq_ok {history : List (List ι)} (h : history.length < 2 ^ 63)
    (pairs : List (ι × ι)) (limit : Nat) (parallel : Bool) :
    (ofHistory history).topAmong pairs limit parallel =
      .ok ((ranked (pairs.map (associate history))).take limit) := by
  have hfound : ((pairs.map (ofHistory history).association).mapM id : Except (Error Float) _) =
      .ok (pairs.map (associate history)) := by
    rw [List.mapM_map, funext fun pair => association_eq_ok h pair]
    exact List.mapM_pure
  rw [topAmong, Tasks.map_eq, hfound]
  rfl

/-- Sorting the associations of all pairs, however these are ordered, yields a ranking. -/
lemma isRanking_ranked {history : List (List ι)} (h : history.length < 2 ^ 63)
    {pairs : List (ι × ι)} (hpairs : pairs.Perm (ofHistory history).pairs.keys) :
    IsRanking history (ranked (pairs.map (associate history))) := by
  have hpair : (pairs.map (associate history)).map Association.pair = pairs := by
    rw [List.map_map]
    exact List.map_id pairs
  have hperm : (ranked (pairs.map (associate history))).Perm (pairs.map (associate history)) :=
    List.mergeSort_perm _ _
  have hkeys : ((ranked (pairs.map (associate history))).map Association.pair).Perm
      (ofHistory history).pairs.keys := by
    have hmap := hperm.map Association.pair
    rw [hpair] at hmap
    exact hmap.trans hpairs
  have hnodup : ((pairs.map (associate history)).map Association.pair).Nodup := by
    rw [hpair]
    exact hpairs.nodup_iff.2 Std.TreeMap.nodup_keys
  refine ⟨hkeys.nodup_iff.2 Std.TreeMap.nodup_keys, fun a b => ?_, fun x hx => ?_, ?_⟩
  · rw [hkeys.mem_iff, Std.TreeMap.mem_keys, (counts_ofHistory history).mem_pairs_iff]
  · obtain ⟨pair, -, rfl⟩ := List.mem_map.1 (hperm.mem_iff.1 hx)
    exact score_eq_ok h _ _
  -- The keys of a map are distinct, so that no two associations tie, even if their scores do.
  · have hties : (pairs.map (associate history)).Pairwise fun x y => rankOrder x y ≠ .eq :=
      (List.pairwise_map.1 hnodup).imp fun hne heq => hne (pair_eq_of_rankOrder_eq heq)
    exact (rising_mergeSort hties).imp rankOrder_eq_lt_iff.1

/-- **The highest ranking associations.**  A history has one ranking, and the highest ranking
associations are the front part of it, in whatever order the tally hands out its pairs and whether
or not these are worked on at the same time.  So an association that is left out ranks after all
that are returned, and a smaller limit returns a front part of what a larger one returns.  The bound
on the history is that of a counter of 64 bits. -/
theorem top_ofHistory (history : List (List ι)) (h : history.length < 2 ^ 63) :
    ∃ ranking, IsRanking history ranking ∧
      (∀ other, IsRanking history other → other = ranking) ∧
      (∀ pairs, pairs.Perm (ofHistory history).pairs.keys → ∀ limit parallel,
        (ofHistory history).topAmong pairs limit parallel = .ok (ranking.take limit)) ∧
      (∀ limit parallel, (ofHistory history).top limit parallel = .ok (ranking.take limit)) ∧
      (∀ limit, (ranking.take limit).length = min limit (ofHistory history).pairs.size) ∧
      (∀ limit, ∀ x ∈ ranking.take limit, ∀ y ∈ ranking, y ∉ ranking.take limit → Precedes x y) ∧
      ∀ m n, m ≤ n → ranking.take m <+: ranking.take n := by
  have hranking := isRanking_ranked h (List.Perm.refl (ofHistory history).pairs.keys)
  refine ⟨_, hranking, fun _ => hranking.unique, fun pairs hpairs limit parallel => ?_,
    fun limit parallel => topAmong_eq_ok h _ limit parallel, fun limit => ?_,
    fun limit x hx y hy hout => ?_, fun m n hmn => List.take_prefix_take_left hmn⟩
  · rw [topAmong_eq_ok h, hranking.unique (isRanking_ranked h hpairs)]
  · rw [List.length_take, ranked, List.length_mergeSort, List.length_map, Std.TreeMap.length_keys]
  · rw [← List.take_append_drop limit (ranked _), List.mem_append] at hy
    have hsorted := hranking.sorted
    rw [← List.take_append_drop limit (ranked _), List.pairwise_append] at hsorted
    exact hsorted.2.2 x hx y (hy.resolve_left hout)

/-- The pairs may be handed out from the last to the first. -/
theorem top_ofHistory_reversed :
    [[2, 1], [1, 3, 3], [2]].length < 2 ^ 63 ∧
      [(1, 3), (1, 2)].Perm (ofHistory [[2, 1], [1, 3, 3], [2]]).pairs.keys ∧
      ∃ ranking, IsRanking [[2, 1], [1, 3, 3], [2]] ranking ∧
        (ofHistory [[2, 1], [1, 3, 3], [2]]).topAmong [(1, 3), (1, 2)] 1 true =
          .ok (ranking.take 1) ∧
        (ofHistory [[2, 1], [1, 3, 3], [2]]).top 5 false = .ok (ranking.take 5) ∧
        (ranking.take 5).length = 2 := by
  have hlength : [[2, 1], [1, 3, 3], [2]].length < 2 ^ 63 := by decide
  have hpairs : [(1, 3), (1, 2)].Perm (ofHistory [[2, 1], [1, 3, 3], [2]]).pairs.keys := by decide
  obtain ⟨ranking, hranking, -, hamong, htop, hcount, -⟩ := top_ofHistory _ hlength
  exact ⟨hlength, hpairs, ranking, hranking, hamong _ hpairs 1 true, htop 5 false, hcount 5⟩

end Tally

end LikelihoodRatio
