/-
# Two samples and the table of their counts

Two samples are compared by the table that has them for rows, so that they have the statistic, the
outcome and the p-value of that table.  One thing is asked about them before there is a table, which
is whether they are equally long.  A table is asked for its number of columns first and for the
lengths of its rows afterwards.  Of samples that differ in length the same is reported either way
if the first one has two categories, and the two orders part where it has fewer
(`FollowsTable`).
-/
import LikelihoodRatio.Proofs.Table.Failures
import LikelihoodRatio.TwoSample

namespace LikelihoodRatio.TwoSample

variable {α : Type} {first second : List Int}

lemma table_eq_ok (h : first.length = second.length) :
    (table first second : Except (Error α) Table) = .ok [first, second] := by
  rw [table, Check.sameLength_eq_ok_iff.2 h]
  rfl

lemma table_eq_error (h : first.length ≠ second.length) :
    (table first second : Except (Error α) Table) =
      .error (.lengthMismatch first.length second.length) :=
  bind_eq_error (Check.sameLength_eq_error_iff.2 ⟨h, rfl⟩) _

/-! ### The first fault of two rows -/

/-- Two rows are refused for the first one if that is too short for a table. -/
lemma firstFault_categories (h : first.length < 2) :
    Table.FirstFault [first, second] (.tooFewCategories 2 first.length) :=
  .columns (Nat.le_refl 2) h

/-- Two rows of different lengths are refused for the second one if the first has two columns. -/
lemma firstFault_length (htwo : 2 ≤ first.length) (h : first.length ≠ second.length) :
    Table.FirstFault [first, second] (.lengthMismatch first.length second.length) := by
  refine .length (Nat.le_refl 2) htwo (i := 1) ⟨rfl, Ne.symm h, ?_⟩
  intro k hk row hrow
  obtain rfl : k = 0 := Nat.lt_one_iff.1 hk
  obtain rfl : first = row := Option.some.inj hrow
  exact not_not.2 rfl

/-! ### Operations on two samples -/

/-- What an operation finds for two samples is what it finds for the table of their counts, and so
is the fault that it reports, unless the samples differ in length and the first one has fewer than
two categories.  Then the samples are refused for their lengths, and the table for its width. -/
structure FollowsTable {β : Type} (first second : List Int)
    (found inTable : Except (Error Float) β) : Prop where
  eq_iff : found = inTable ↔ first.length = second.length ∨ 2 ≤ first.length
  reports : first.length = second.length ∨ 2 ≤ first.length →
    Table.ReportsFirstFault [first, second] found
  differ : ¬(first.length = second.length ∨ 2 ≤ first.length) →
    found = .error (.lengthMismatch first.length second.length) ∧
      inTable = .error (.tooFewCategories 2 first.length)

/-- Every operation follows the table that reports the first fault of the table. -/
lemma followsTable_bind {β : Type} {f : Table → Except (Error Float) β}
    (hf : ∀ t, Table.ReportsFirstFault t (f t)) (first second : List Int) :
    FollowsTable first second (table first second >>= f) (f [first, second]) := by
  have hagree (h : first.length = second.length ∨ 2 ≤ first.length) :
      table first second >>= f = f [first, second] := by
    by_cases hlength : first.length = second.length
    · exact bind_ok (table_eq_ok hlength) f
    · have htwo := h.resolve_left hlength
      rw [bind_eq_error (table_eq_error hlength),
        ((hf _).error_iff _).2 (firstFault_length htwo hlength)]
  have hdiffer (h : ¬(first.length = second.length ∨ 2 ≤ first.length)) :
      table first second >>= f = .error (.lengthMismatch first.length second.length) ∧
        f [first, second] = .error (.tooFewCategories 2 first.length) := by
    obtain ⟨hlength, hfew⟩ := not_or.1 h
    exact ⟨bind_eq_error (table_eq_error hlength) f,
      ((hf _).error_iff _).2 (firstFault_categories (Nat.lt_of_not_le hfew))⟩
  refine ⟨⟨fun heq => ?_, hagree⟩, fun h => hagree h ▸ hf _, hdiffer⟩
  by_contra h
  obtain ⟨hfound, htable⟩ := hdiffer h
  rw [hfound, htable] at heq
  cases heq

/-- **Two samples and the table of their counts.**  The statistic, the outcome and the p-value of
two samples are those of the table that has them for rows, and what is wrong with the samples is
reported in the order in which a table is looked at, exactly if the samples are equally long or the
first one has two categories at least.  Otherwise their lengths are reported, although the table has
too few columns. -/
theorem statistic_evaluate_pValue_followTable (first second : List Int) :
    FollowsTable first second (statistic first second : Except (Error Float) Float)
        (Table.statistic [first, second]) ∧
      FollowsTable first second (evaluate first second) (Table.evaluate [first, second]) ∧
      FollowsTable first second (pValue first second) (Table.pValue [first, second]) :=
  ⟨followsTable_bind Table.reportsFirstFault_statistic first second,
    followsTable_bind Table.reportsFirstFault_evaluate first second,
    followsTable_bind Table.reportsFirstFault_pValue first second⟩

/-- One category and two: the samples are refused for their lengths, and the table of their counts
for its width. -/
theorem lengths_reported_before_categories :
    (statistic [1] [1, 2] : Except (Error Float) Float) = .error (.lengthMismatch 1 2) ∧
      (Table.statistic [[1], [1, 2]] : Except (Error Float) Float) =
        .error (.tooFewCategories 2 1) ∧
      (statistic [1] [1, 2] : Except (Error Float) Float) ≠ Table.statistic [[1], [1, 2]] := by
  refine ⟨rfl, rfl, ?_⟩
  intro h
  cases h

end LikelihoodRatio.TwoSample
