/-
# Arithmetic with undefined results

Division by zero and the logarithm of zero have a value in every arithmetic.  In guarded arithmetic
they are undefined, and what is computed from something undefined is undefined itself.  If a formula
has a value in guarded arithmetic, then no step that the value depends on is such a division or such
a logarithm.

The formulas of this library are written over any arithmetic, so that they can be read in guarded
arithmetic as they are.  Sums of counts are always defined (`countSum_eq`).  The term of an empty
cell does not depend on what is expected of the cell (`term_zero`), and so nothing is said about
that by the term.
-/
import LikelihoodRatio.Term
import Mathlib.Tactic.Common

namespace LikelihoodRatio

open Arithmetic

/-- A number, or an undefined result. -/
inductive Guarded (α : Type) where
  | value (x : α)
  | undefined

namespace Guarded

variable {α : Type}

/-- An operation on numbers that is undefined for some of them. -/
def lift (f : α → Guarded α) : Guarded α → Guarded α
  | value x => f x
  | undefined => undefined

/-- An operation on two numbers that is undefined for some of them. -/
def lift₂ (f : α → α → Guarded α) (x y : Guarded α) : Guarded α :=
  x.lift fun x => y.lift (f x)

/-- A comparison.  What is undefined compares with nothing. -/
def Holds (r : α → α → Prop) : Guarded α → Guarded α → Prop
  | value x, value y => r x y
  | _, _ => False

instance decidableHolds (r : α → α → Prop) [DecidableRel r] : DecidableRel (Holds r)
  | value x, value y => inferInstanceAs (Decidable (r x y))
  | value _, undefined => isFalse id
  | undefined, _ => isFalse id

/-- Guarded arithmetic.  A quotient needs a divisor that is not equal to zero, a logarithm a
positive number, and a root a number that is not negative. -/
instance arithmeticGuarded [Arithmetic α] : Arithmetic (Guarded α) where
  ofInt n := value (ofInt n)
  ln := lift fun x => if 0.0 < x then value (ln x) else undefined
  sqrt := lift fun x => if x < 0.0 then undefined else value (sqrt x)
  isFinite
    | value x => isFinite x
    | undefined => false
  add := ⟨lift₂ fun x y => value (x + y)⟩
  sub := ⟨lift₂ fun x y => value (x - y)⟩
  mul := ⟨lift₂ fun x y => value (x * y)⟩
  div := ⟨lift₂ fun x y => if y == 0.0 then undefined else value (x / y)⟩
  neg := ⟨lift fun x => value (-x)⟩
  beq := ⟨fun
    | value x, value y => x == y
    | _, _ => false⟩
  lt := ⟨Holds (· < ·)⟩
  le := ⟨Holds (· ≤ ·)⟩
  decidableLT := decidableHolds (· < ·)
  decidableLE := decidableHolds (· ≤ ·)
  ofScientific := ⟨fun mantissa negative exponent =>
    value (OfScientific.ofScientific mantissa negative exponent)⟩

variable [Arithmetic α]

lemma zero_eq : (0.0 : Guarded α) = value 0.0 := rfl

lemma value_add (x y : α) : value x + value y = value (x + y) := rfl

lemma value_mul (x y : α) : value x * value y = value (x * y) := rfl

lemma value_div {x y : α} (hy : (y == 0.0) = false) : value x / value y = value (x / y) := by
  change (if (y == 0.0) = true then undefined else value (x / y)) = _
  rw [hy]
  rfl

lemma ln_value {x : α} (hx : 0.0 < x) : ln (value x) = value (ln x) := by
  change (if 0.0 < x then value (ln x) else undefined) = _
  rw [if_pos hx]

/-! ### Sums and terms -/

lemma leftSum_map_value (xs : List α) : leftSum (xs.map value) = value (leftSum xs) := by
  rw [leftSum, leftSum, List.foldl_map, zero_eq]
  exact List.foldl_hom value fun x y => value_add x y

/-- Sums of counts are always defined. -/
lemma countSum_eq (counts : List Int) :
    (countSum counts : Guarded α) = value (countSum counts) := by
  rw [countSum, countSum, ← leftSum_map_value, List.map_map]
  rfl

/-- The term of an empty cell is defined, even if what is expected of the cell is not. -/
lemma term_zero (expected : Guarded α) : term 0 expected = value 0.0 := by
  rw [term, if_pos rfl, zero_eq]

/-- The term of a cell is defined if what is expected of it is not zero and the ratio of the two is
positive. -/
lemma term_eq {count : Int} {expected : α}
    (h : count ≠ 0 → (expected == 0.0) = false ∧ 0.0 < ofInt count / expected) :
    term count (value expected) = value (term count expected) := by
  rw [term, term]
  split_ifs with hzero
  · rfl
  · obtain ⟨hexpected, hratio⟩ := h hzero
    change value (ofInt count) * ln (value (ofInt count) / value expected) = _
    rw [value_div hexpected, ln_value hratio, value_mul]

end Guarded

end LikelihoodRatio
