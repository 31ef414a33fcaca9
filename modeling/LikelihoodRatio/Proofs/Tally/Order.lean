/-
# Rising lists

A list rises in an order if each member comes strictly before all later ones.  Such a list is known
from its members alone (`eq_of_rising`), and sorting yields one if no two members tie
(`rising_mergeSort`).  So neither the order in which a set hands out its items nor the order in
which a map hands out its pairs can be told once they are sorted.

The orders in question are those of items, of pairs of items, and of associations by rank.
-/
import LikelihoodRatio.Tally
import Mathlib.Data.List.Sort

namespace LikelihoodRatio

open Std (OrientedCmp TransCmp LawfulEqCmp TransOrd LawfulEqOrd)

section Rising

variable {κ : Type} {cmp : κ → κ → Ordering}

/-- Each member comes strictly before all later ones. -/
def Rising (cmp : κ → κ → Ordering) (xs : List κ) : Prop := xs.Pairwise fun a b => cmp a b = .lt

lemma Rising.nodup [OrientedCmp cmp] {xs : List κ} (h : Rising cmp xs) : xs.Nodup := by
  refine h.imp fun {a b} hab => ?_
  rintro rfl
  exact OrientedCmp.not_lt_of_lt hab hab

/-- Rising lists with the same members are equal. -/
lemma eq_of_rising [OrientedCmp cmp] {xs ys : List κ} (hxs : Rising cmp xs)
    (hys : Rising cmp ys) (h : ∀ a, a ∈ xs ↔ a ∈ ys) : xs = ys := by
  have : Std.Irrefl fun a b => cmp a b = .lt :=
    ⟨fun a ha => OrientedCmp.not_lt_of_lt ha ha⟩
  have : Std.Antisymm fun a b => cmp a b = .lt :=
    ⟨fun a b hab hba => absurd hba (OrientedCmp.not_lt_of_lt hab)⟩
  exact List.Pairwise.eq_of_mem_iff hxs hys h

/-- Sorting members that do not tie yields a rising list. -/
lemma rising_mergeSort [TransCmp cmp] {xs : List κ}
    (h : xs.Pairwise fun a b => cmp a b ≠ .eq) :
    Rising cmp (xs.mergeSort fun a b => (cmp a b).isLE) := by
  have htotal (a b : κ) : ((cmp a b).isLE || (cmp b a).isLE) = true := by
    have hswap : (cmp b a).isLE = (cmp a b).isGE := OrientedCmp.isGE_eq_isLE.symm
    rw [hswap]
    cases cmp a b <;> rfl
  have hsorted : (xs.mergeSort fun a b => (cmp a b).isLE).Pairwise fun a b => (cmp a b).isLE :=
    List.pairwise_mergeSort (fun _ _ _ => TransCmp.isLE_trans) htotal xs
  have hties : (xs.mergeSort fun a b => (cmp a b).isLE).Pairwise fun a b => cmp a b ≠ .eq :=
    (List.mergeSort_perm xs _).symm.pairwise h fun hab hba => hab (OrientedCmp.eq_symm hba)
  -- Neighbours that are in order and do not tie are strictly in order.
  exact hsorted.imp₂
    (fun a b hle hne => (Ordering.isLE_iff_eq_lt_or_eq_eq.1 hle).resolve_right hne) hties

end Rising

variable {ι : Type} [Ord ι]

/-! ### Pairs -/

instance transCmp_pairOrder [TransOrd ι] : TransCmp (@pairOrder ι _) :=
  inferInstanceAs (TransCmp (compareLex _ _))

instance lawfulEqCmp_pairOrder [LawfulEqOrd ι] : LawfulEqCmp (@pairOrder ι _) where
  compare_self := by simp [pairOrder, compareLex, compareOn]
  eq_of_compare := by
    rintro ⟨a, b⟩ ⟨c, d⟩ h
    simpa [pairOrder, compareOn] using h

lemma pairOrder_eq_lt_iff [LawfulEqOrd ι] {a b c d : ι} :
    pairOrder (a, b) (c, d) = .lt ↔ compare a c = .lt ∨ a = c ∧ compare b d = .lt := by
  simp [pairOrder, compareLex, compareOn, Ordering.then_eq_lt]

end LikelihoodRatio
