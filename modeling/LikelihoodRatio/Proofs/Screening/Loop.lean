/-
# One pass over many tables

A screening looks at one table after the other, and keeps the indices of those that it rejects, the
number of those that it skips, and a log.  Each table adds to these what it has to add
(`look_error`, `look_of_lt`, `look_of_not_lt`), and so the pass adds what all of them have
(`foldlM_look`).
-/
import LikelihoodRatio.Proofs.Decision
import LikelihoodRatio.Screening

namespace LikelihoodRatio.Screening

/-- The indices that go with p-values below `alpha`. -/
def rejected (alpha : Float) (found : List (Except (Error Float) Float × Nat)) : List Nat :=
  found.filterMap fun
    | (.ok p, i) => if p < alpha then some i else none
    | (.error _, _) => none

/-- An entry for each table without a p-value. -/
def skipped (found : List (Except (Error Float) Float × Nat)) : List LogEntry :=
  found.filterMap fun
    | (.ok _, _) => none
    | (.error e, i) => some (.skipped i e)

variable {alpha p : Float} {i : Nat}

lemma look_error (progress : Progress) (e : Error Float) :
    progress.look alpha (.error e, i) =
      ⟨.ok { progress with skipped := progress.skipped + 1 }, [.skipped i e]⟩ := rfl

lemma look_of_lt (progress : Progress) (hp : p < alpha) :
    progress.look alpha (.ok p, i) =
      ⟨.ok { progress with rejected := progress.rejected ++ [i] }, []⟩ := by
  rw [Progress.look, if_pos hp]
  rfl

lemma look_of_not_lt (progress : Progress) (hp : ¬p < alpha) :
    progress.look alpha (.ok p, i) = ⟨.ok progress, []⟩ := by
  rw [Progress.look, if_neg hp]
  rfl

/-- The pass adds to the indices, to the number of tables skipped and to the log. -/
lemma foldlM_look (found : List (Except (Error Float) Float × Nat)) (progress : Progress) :
    found.foldlM (Progress.look alpha) progress =
      ⟨.ok ⟨progress.rejected ++ rejected alpha found,
        progress.skipped + (skipped found).length⟩, skipped found⟩ := by
  induction found generalizing progress with
  | nil =>
    rw [rejected, List.filterMap_nil, List.append_nil]
    rfl
  | cons entry found ih =>
    rw [List.foldlM_cons]
    obtain ⟨e | p, i⟩ := entry
    · rw [look_error, Logged.bind_of_ok _ rfl, ih]
      simp [rejected, skipped, Nat.add_assoc, Nat.add_comm]
    · by_cases hp : p < alpha
      · rw [look_of_lt progress hp, Logged.bind_of_ok _ rfl, ih]
        simp [rejected, skipped, hp]
      · rw [look_of_not_lt progress hp, Logged.bind_of_ok _ rfl, ih]
        simp [rejected, skipped, hp]

/-- At a level between zero and one the whole of the tables is gone through. -/
lemma significant_eq (h : 0.0 < alpha ∧ alpha < 1.0) (tables : List Table) (parallel : Bool) :
    significant tables alpha parallel =
      ⟨.ok (rejected alpha (tables.map Table.pValue).zipIdx),
        skipped (tables.map Table.pValue).zipIdx ++
          [.screened (rejected alpha (tables.map Table.pValue).zipIdx).length tables.length alpha
            (skipped (tables.map Table.pValue).zipIdx).length]⟩ := by
  rw [significant, level_bind h, pValues, Tasks.map_eq, foldlM_look, Logged.bind_of_ok _ rfl,
    Logged.bind_of_ok _ rfl]
  simp only [Progress.start, List.nil_append, Nat.zero_add]
  rfl

/-- At any other level nothing is looked at, and nothing enters the log. -/
lemma significant_of_not (h : ¬(0.0 < alpha ∧ alpha < 1.0)) (tables : List Table)
    (parallel : Bool) :
    significant tables alpha parallel = ⟨.error (.significanceOutOfRange alpha), []⟩ :=
  level_bind_of_not h _

end LikelihoodRatio.Screening
