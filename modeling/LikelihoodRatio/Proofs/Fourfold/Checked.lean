/-
# Fourfold tables and the independence test

A fourfold table is asked for less than other tables are: its counts must not be negative, but its
rows and columns may be empty.  Both checks find the same negative count at the same position
(`check_cells_toTable`), and past them the same statistic is computed.  So the independence test and
the statistic of a fourfold table agree, unless a row or a column is empty; then the test refuses
the table, and the table has a statistic all the same (`statistic_follows_test`).
-/
import LikelihoodRatio.Proofs.Failures
import LikelihoodRatio.Proofs.Fourfold.Basic

namespace LikelihoodRatio.Fourfold

open Arithmetic

/-! ### Checks -/

section Checks

variable {α : Type}

/-- In row-major order the cells have the positions that the counts have. -/
lemma check_cells_toTable (f : Fourfold) :
    (Check.cells f.toTable : Except (Error α) Unit) = Check.counts f.counts :=
  rfl

lemma check_rectangular_toTable (f : Fourfold) :
    (Check.rectangular f.toTable : Except (Error α) Unit) = .ok () :=
  Check.rectangular_eq_ok_iff.2 ⟨Nat.le_refl 2, Nat.le_refl 2, by simp [toTable, Table.width]⟩

/-- No count is negative, or the first negative one is reported. -/
lemma nonneg_or_check_counts (α : Type) (f : Fourfold) :
    f.Nonneg ∨ ∃ index value, FirstAt (· < 0) f.counts index value ∧
      (Check.counts f.counts : Except (Error α) Unit) = .error (.negativeCount index value) := by
  cases h : (Check.counts f.counts : Except (Error α) Unit) with
  | ok _ => exact .inl (nonneg_of_counts (Check.counts_eq_ok_iff.1 h))
  | error e =>
    obtain ⟨index, value, hfirst, rfl⟩ := Check.counts_eq_error_iff.1 h
    exact .inr ⟨index, value, hfirst, rfl⟩

end Checks

variable {α : Type} [Arithmetic α] {f : Fourfold}

/-- Counts that are refused are refused by the test, for the statistic and for the score alike. -/
lemma eq_error_of_check_counts {e : Error α} (h : Check.counts f.counts = .error e) :
    (f.toTable.statistic : Except (Error α) α) = .error e ∧
      (f.statistic : Except (Error α) α) = .error e ∧
      (f.score : Except (Error α) α) = .error e := by
  have hstatistic : (f.statistic : Except (Error α) α) = .error e := bind_eq_error h _
  refine ⟨?_, hstatistic, bind_eq_error hstatistic _⟩
  rw [Table.statistic, Table.validate, check_rectangular_toTable, check_cells_toTable, h]
  rfl

/-- Past the check of the counts the test asks for the margins. -/
lemma Nonneg.validate_toTable (h : f.Nonneg) :
    (f.toTable.validate : Except (Error α) (Margins α)) =
      Check.marginals f.toTable.rowSums f.toTable.colSums >>=
        fun _ => pure (.ofTable f.toTable) := by
  rw [Table.validate, check_rectangular_toTable, check_cells_toTable, h.check_counts]
  rfl

/-- The test agrees with the statistic, or refuses the table for an empty row or column. -/
lemma Nonneg.statistic_toTable_cases (h : f.Nonneg) :
    f.toTable.statistic = .ok (f.toTable.uncheckedStatistic : α) ∨
      ∃ marginal, (f.toTable.statistic : Except (Error α) α) =
        .error (.degenerateMarginal marginal) := by
  rw [Table.statistic, h.validate_toTable]
  cases hmargins : Check.marginals (f.toTable.rowSums : List α) f.toTable.colSums with
  | ok _ => exact .inl rfl
  | error e =>
    rcases Check.marginals_eq_error_iff.1 hmargins with ⟨i, _, _, rfl⟩ | ⟨_, j, _, _, rfl⟩
    · exact .inr ⟨.row i, rfl⟩
    · exact .inr ⟨.column j, rfl⟩

/-- What the score makes of the statistic. -/
lemma score_eq_of_statistic {g : α} (h : f.statistic = .ok g) :
    (g ≤ 0.0 → f.score = .ok (0.0 : α)) ∧
      (¬g ≤ 0.0 → f.score = .ok (sqrt g) ∨ f.score = .ok (-sqrt g)) := by
  have hscore : (f.score : Except (Error α) α) =
      if g ≤ 0.0 then .ok 0.0
      else if (f.rateWithoutA : α) < f.rateWithA then .ok (sqrt g) else .ok (-sqrt g) :=
    bind_ok h _
  rw [hscore]
  constructor
  · intro hle
    exact if_pos hle
  · intro hpos
    rw [if_neg hpos]
    split_ifs
    · exact .inl rfl
    · exact .inr rfl

/-- **The statistic of a fourfold table follows the independence test.**  If the test has a
statistic, it is that of the fourfold table; if the test reports a negative count, the same count is
reported at the same position, which is that of the first negative one; and if the test reports an
empty row or column, there are a statistic and a score all the same.  The test has no other outcome.
Where there is a statistic, the score is zero if that is at most zero, and otherwise its root with
either sign. -/
theorem statistic_follows_test (f : Fourfold) :
    ((∃ g : α, f.toTable.statistic = .ok g ∧ f.statistic = .ok g) ∨
      (∃ index value, FirstAt (· < 0) f.counts index value ∧
        (f.toTable.statistic : Except (Error α) α) = .error (.negativeCount index value) ∧
        (f.statistic : Except (Error α) α) = .error (.negativeCount index value) ∧
        (f.score : Except (Error α) α) = .error (.negativeCount index value)) ∨
      ∃ (marginal : Marginal) (g s : α),
        (f.toTable.statistic : Except (Error α) α) = .error (.degenerateMarginal marginal) ∧
        f.statistic = .ok g ∧ f.score = .ok s) ∧
    ∀ g : α, f.statistic = .ok g →
      (g ≤ 0.0 → f.score = .ok (0.0 : α)) ∧
      (¬g ≤ 0.0 → f.score = .ok (sqrt g) ∨ f.score = .ok (-sqrt g)) := by
  refine ⟨?_, fun g => score_eq_of_statistic⟩
  rcases f.nonneg_or_check_counts α with h | ⟨index, value, hfirst, hcounts⟩
  · rcases h.statistic_toTable_cases (α := α) with htest | ⟨marginal, htest⟩
    · exact .inl ⟨_, htest, statistic_eq_ok h⟩
    · exact .inr (.inr ⟨marginal, _, _, htest, statistic_eq_ok h, score_eq_ok h⟩)
  · exact .inr (.inl ⟨index, value, hfirst, eq_error_of_check_counts hcounts⟩)

/-- Two events that always occur together, with the logarithm replaced by its tangent at one. -/
theorem statistic_follows_test_diagonal : letI := binary64 fun x => x - 1.0
    (⟨1, 0, 0, 1⟩ : Fourfold).statistic = .ok (4.0 : Float) ∧ ¬(4.0 : Float) ≤ 0.0 ∧
      ((⟨1, 0, 0, 1⟩ : Fourfold).score = .ok (Float.sqrt 4.0) ∨
        (⟨1, 0, 0, 1⟩ : Fourfold).score = .ok (-Float.sqrt 4.0)) := by
  let := binary64 fun x => x - 1.0
  have hstatistic : (⟨1, 0, 0, 1⟩ : Fourfold).statistic = .ok (4.0 : Float) := by
    refine (statistic_eq_ok ⟨by decide, by decide, by decide, by decide⟩).trans ?_
    refine congrArg Except.ok ?_
    decide +kernel
  have hpos : ¬(4.0 : Float) ≤ 0.0 := by decide +kernel
  obtain ⟨-, hscore⟩ := statistic_follows_test (α := Float) ⟨1, 0, 0, 1⟩
  exact ⟨hstatistic, hpos, (hscore 4.0 hstatistic).2 hpos⟩

end LikelihoodRatio.Fourfold
