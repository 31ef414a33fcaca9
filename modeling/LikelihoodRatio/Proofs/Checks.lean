/-
# What a passed check says

A check that passes says something of every part of the data that it has looked at.  Checks are made
one after the other, and a sequence of them passes if each one does (`bind_eq_ok_iff`).
-/
import LikelihoodRatio.Check
import Mathlib.Tactic.Common

namespace LikelihoodRatio

/-- A step that uses an earlier result has a result if both steps do. -/
lemma bind_eq_ok_iff {ε β γ : Type} {x : Except ε β} {f : β → Except ε γ} {c : γ} :
    x >>= f = .ok c ↔ ∃ b, x = .ok b ∧ f b = .ok c := by
  cases x with
  | error e => simp [bind, Except.bind]
  | ok b => simp [bind, Except.bind]

/-- A check has no result to use but that it passes. -/
lemma check_bind_eq_ok_iff {ε γ : Type} {x : Except ε Unit} {f : Unit → Except ε γ} {c : γ} :
    x >>= f = .ok c ↔ x = .ok () ∧ f () = .ok c := by
  rw [bind_eq_ok_iff]
  exact ⟨fun ⟨_, hx, hf⟩ => ⟨hx, hf⟩, fun ⟨hx, hf⟩ => ⟨(), hx, hf⟩⟩

/-- A step that fails keeps all later ones from being taken. -/
lemma bind_eq_error {ε β γ : Type} {x : Except ε β} {e : ε} (h : x = .error e)
    (f : β → Except ε γ) : x >>= f = .error e := by
  rw [h]
  rfl

/-- A step that has a result is followed by what comes after it. -/
lemma bind_ok {ε β γ : Type} {x : Except ε β} {b : β} (h : x = .ok b) (f : β → Except ε γ) :
    x >>= f = f b := by
  rw [h]
  rfl

lemma pure_eq_ok_iff {ε β : Type} {b c : β} : (pure b : Except ε β) = .ok c ↔ b = c := by
  simp [pure, Except.pure]

/-! ### Steps that rely on checks -/

lemma subtract_eq_ok_iff {α : Type} {number taken left : Nat} :
    (subtract number taken : Except (Error α) Nat) = .ok left ↔ left + taken = number := by
  rw [subtract]
  split_ifs with h
  · simp only [false_iff]
    omega
  · rw [Except.ok.injEq]
    omega

/-- The first row is as long as the table is wide. -/
lemma Table.exists_row_zero {α : Type} {t : Table} (h : 0 < t.length) :
    ∃ row, (t.row 0 : Except (Error α) (List Int)) = .ok row ∧ row.length = t.width := by
  cases t with
  | nil => cases h
  | cons row t => exact ⟨row, rfl, rfl⟩

namespace Check

variable {α : Type}

lemma positioned_eq_ok_iff {cells : List (Int × Nat)} :
    (positioned cells : Except (Error α) Unit) = .ok () ↔ ∀ cell ∈ cells, 0 ≤ cell.1 := by
  have hnone : cells.find? (fun cell => decide (cell.1 < 0)) = none ↔
      ∀ cell ∈ cells, 0 ≤ cell.1 := by simp
  rw [← hnone, positioned]
  cases cells.find? (fun cell => decide (cell.1 < 0)) <;> simp

/-- The check of counts passes if none of them is negative. -/
lemma counts_eq_ok_iff {observed : List Int} :
    (counts observed : Except (Error α) Unit) = .ok () ↔ ∀ count ∈ observed, 0 ≤ count := by
  rw [counts, positioned_eq_ok_iff]
  constructor
  · intro h count hcount
    obtain ⟨i, hi, rfl⟩ := List.mem_iff_getElem.1 hcount
    exact h (observed[i], i) (List.mem_zipIdx_iff_getElem?.2 (List.getElem?_eq_getElem hi))
  · rintro h ⟨count, i⟩ hcell
    exact h count (List.mem_of_getElem? (List.mem_zipIdx_iff_getElem?.1 hcell))

lemma sameLength_eq_ok_iff {β γ : Type} {a : List β} {b : List γ} :
    (sameLength a b : Except (Error α) Unit) = .ok () ↔ a.length = b.length := by
  simp [sameLength]

lemma categories_eq_ok_iff {found required : Nat} :
    (categories found required : Except (Error α) Unit) = .ok () ↔ required ≤ found := by
  simp [categories]

/-! ### Tables -/

lemma mem_cells_iff {t : Table} {count : Int} :
    (∃ position, (count, position) ∈ t.cells) ↔ count ∈ t.flatten := by
  simp only [Table.cells, List.mem_flatMap, List.mem_map, Prod.exists, Prod.mk.injEq,
    List.mem_flatten]
  constructor
  · rintro ⟨_, row, i, hrow, count', j, hcount, rfl, -⟩
    exact ⟨row, List.mem_of_getElem? (List.mem_zipIdx_iff_getElem?.1 hrow),
      List.mem_of_getElem? (List.mem_zipIdx_iff_getElem?.1 hcount)⟩
  · rintro ⟨row, hrow, hcount⟩
    obtain ⟨i, hi, rfl⟩ := List.mem_iff_getElem.1 hrow
    obtain ⟨j, hj, rfl⟩ := List.mem_iff_getElem.1 hcount
    exact ⟨_, t[i], i, List.mem_zipIdx_iff_getElem?.2 (List.getElem?_eq_getElem hi), t[i][j], j,
      List.mem_zipIdx_iff_getElem?.2 (List.getElem?_eq_getElem hj), rfl, rfl⟩

/-- The check of a table passes if none of its cells is negative. -/
lemma cells_eq_ok_iff {t : Table} :
    (cells t : Except (Error α) Unit) = .ok () ↔ ∀ count ∈ t.flatten, 0 ≤ count := by
  rw [cells, positioned_eq_ok_iff]
  constructor
  · intro h count hcount
    obtain ⟨position, hcell⟩ := mem_cells_iff.2 hcount
    exact h _ hcell
  · rintro h ⟨count, position⟩ hcell
    exact h count (mem_cells_iff.1 ⟨position, hcell⟩)

lemma rowLengths_eq_ok_iff {t : Table} {width : Nat} :
    (rowLengths t width : Except (Error α) Unit) = .ok () ↔ ∀ row ∈ t, row.length = width := by
  have hragged : t.find? (fun row => row.length != width) = none ↔
      ∀ row ∈ t, row.length = width := by simp
  rw [rowLengths, ← hragged]
  cases t.find? (fun row => row.length != width) <;> simp

/-- By the time that the first row is looked at there are rows, and its length is the width. -/
lemma rectangular_eq (t : Table) :
    (rectangular t : Except (Error α) Unit) = (do
      categories t.length 2
      categories t.width 2
      rowLengths t t.width) := by
  cases t <;> rfl

lemma rectangular_eq_ok_iff {t : Table} :
    (rectangular t : Except (Error α) Unit) = .ok () ↔
      2 ≤ t.length ∧ 2 ≤ t.width ∧ ∀ row ∈ t, row.length = t.width := by
  rw [rectangular_eq, check_bind_eq_ok_iff, check_bind_eq_ok_iff, categories_eq_ok_iff,
    categories_eq_ok_iff, rowLengths_eq_ok_iff]

section Arithmetic

variable [Arithmetic α]

lemma marginals_eq_ok_iff {rowSums colSums : List α} :
    marginals rowSums colSums = .ok () ↔
      (∀ r ∈ rowSums, (r == 0.0) = false) ∧ ∀ c ∈ colSums, (c == 0.0) = false := by
  have hrows : rowSums.findIdx? (· == 0.0) = none ↔ ∀ r ∈ rowSums, (r == 0.0) = false := by simp
  have hcols : colSums.findIdx? (· == 0.0) = none ↔ ∀ c ∈ colSums, (c == 0.0) = false := by simp
  rw [marginals, ← hrows, ← hcols]
  cases rowSums.findIdx? (· == 0.0) <;> cases colSums.findIdx? (· == 0.0) <;> simp

/-- The check of expected values passes if each of them is finite and positive. -/
lemma expected_eq_ok_iff {values : List α} :
    expected values = .ok () ↔ ∀ e ∈ values, Arithmetic.isFinite e = true ∧ (0.0 : α) < e := by
  have hnone : values.zipIdx.find?
      (fun cell => !(Arithmetic.isFinite cell.1 && decide ((0.0 : α) < cell.1))) = none ↔
      ∀ e ∈ values, Arithmetic.isFinite e = true ∧ (0.0 : α) < e := by
    simp only [List.find?_eq_none, Bool.not_eq_true', Bool.not_eq_false, Bool.and_eq_true,
      decide_eq_true_eq, Prod.forall]
    constructor
    · intro h e he
      obtain ⟨i, hi, rfl⟩ := List.mem_iff_getElem.1 he
      exact h _ i (List.mem_zipIdx_iff_getElem?.2 (List.getElem?_eq_getElem hi))
    · intro h e i hcell
      exact h e (List.mem_of_getElem? (List.mem_zipIdx_iff_getElem?.1 hcell))
  rw [← hnone, expected]
  cases values.zipIdx.find?
    (fun cell => !(Arithmetic.isFinite cell.1 && decide ((0.0 : α) < cell.1))) <;> simp

lemma level_eq_ok_iff {alpha : α} :
    level alpha = .ok () ↔ (0.0 : α) < alpha ∧ alpha < (1.0 : α) := by
  simp [level]

lemma level_eq_error {alpha : α} (h : ¬((0.0 : α) < alpha ∧ alpha < (1.0 : α))) :
    level alpha = .error (.significanceOutOfRange alpha) :=
  if_neg h

end Arithmetic

end Check

end LikelihoodRatio
