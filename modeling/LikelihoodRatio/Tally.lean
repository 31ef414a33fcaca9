/-
# Tallies of items that occur together

A tally counts, over a stream of transactions, how often each item and each pair of items occurs.
Each pair of items has a fourfold table and hence a score, and the pairs can be ranked by it.

The items are kept in an order, and a pair is counted under its smaller item first.
-/
import LikelihoodRatio.Fourfold
import LikelihoodRatio.Tasks
import Std.Data.TreeMap
import Std.Data.TreeSet

namespace LikelihoodRatio

variable {ι : Type} [Ord ι]

/-- Pairs by their first item, and by their second item if that is the same. -/
def pairOrder : ι × ι → ι × ι → Ordering := compareLex (compareOn Prod.fst) (compareOn Prod.snd)

/-- How often items occur in transactions. -/
structure Tally (ι : Type) [Ord ι] where
  /-- The number of transactions. -/
  transactions : Nat
  /-- In how many transactions an item occurs. -/
  items : Std.TreeMap ι Nat
  /-- In how many transactions two items occur, the smaller one first. -/
  pairs : Std.TreeMap (ι × ι) Nat pairOrder

/-- Two items and the score of their association. -/
structure Association (ι : Type) where
  /-- The smaller item. -/
  first : ι
  /-- The larger item. -/
  second : ι
  score : Float
deriving DecidableEq, Repr

namespace Tally

/-- Counts one more for `key`. -/
def bump {κ : Type} {cmp : κ → κ → Ordering} (m : Std.TreeMap κ Nat cmp) (key : κ) :
    Std.TreeMap κ Nat cmp :=
  m.insert key (m.getD key 0 + 1)

/-- The items of a transaction in their order, each once. -/
def distinct (items : List ι) : List ι := (Std.TreeSet.ofList items).toList

/-- All pairs of an item and a later one. -/
def pairsOf : List ι → List (ι × ι)
  | [] => []
  | a :: items => items.map (a, ·) ++ pairsOf items

/-- The tally before the first transaction. -/
def empty : Tally ι := ⟨0, ∅, ∅⟩

/-- Counts one transaction.  An item that it holds several times counts once. -/
def observe (t : Tally ι) (items : List ι) : Tally ι :=
  let present := distinct items
  ⟨t.transactions + 1, present.foldl bump t.items, (pairsOf present).foldl bump t.pairs⟩

/-- The tally of a history of transactions. -/
def ofHistory (history : List (List ι)) : Tally ι := history.foldl observe empty

/-- In how many transactions an item occurs. -/
def itemCount (t : Tally ι) (a : ι) : Nat := t.items.getD a 0

/-- In how many transactions two items occur together, and an item with itself wherever it
occurs. -/
def pairCount (t : Tally ι) (a b : ι) : Nat :=
  match compare a b with
  | .lt => t.pairs.getD (a, b) 0
  | .eq => t.itemCount a
  | .gt => t.pairs.getD (b, a) 0

/-- The fourfold table of two items. -/
def table {α : Type} (t : Tally ι) (a b : ι) : Except (Error α) Fourfold :=
  Fourfold.ofMarginals (t.pairCount a b) (t.itemCount a) (t.itemCount b) t.transactions

/-- The score of the association of two items. -/
def score {α : Type} [Arithmetic α] (t : Tally ι) (a b : ι) : Except (Error α) α := do
  (← t.table a b).score

/-- Higher scores first, and equal scores by the pair of items. -/
def rankOrder (x y : Association ι) : Ordering :=
  (compare (Binary.rank y.score) (Binary.rank x.score)).then
    (pairOrder (x.first, x.second) (y.first, y.second))

def ranked (found : List (Association ι)) : List (Association ι) :=
  found.mergeSort fun x y => (rankOrder x y).isLE

def association (t : Tally ι) (pair : ι × ι) : Except (Error Float) (Association ι) := do
  return ⟨pair.1, pair.2, ← t.score pair.1 pair.2⟩

/-- The `limit` highest ranking associations among `pairs`, in whatever order these are given,
worked out at the same time if `parallel` is set. -/
def topAmong (t : Tally ι) (pairs : List (ι × ι)) (limit : Nat) (parallel : Bool) :
    Except (Error Float) (List (Association ι)) := do
  let found ← (Tasks.map parallel t.association pairs).mapM id
  return (ranked found).take limit

/-- The `limit` highest ranking associations among the pairs that occur together. -/
def top (t : Tally ι) (limit : Nat) (parallel : Bool) :
    Except (Error Float) (List (Association ι)) :=
  t.topAmong t.pairs.keys limit parallel

end Tally

end LikelihoodRatio
