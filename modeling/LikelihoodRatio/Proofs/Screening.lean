/-
# What a screening finds

A screening finds the tables that a test on their own would reject, by their indices, and enters
into the log what it leaves out (`significant_indices_and_log`).  Both are read off the p-values,
each of which belongs to one table, so that a table never has a say in what becomes of another one.
What is left out is told by its line in the log, since no two refusals have the same message.
-/
import LikelihoodRatio.Proofs.Refusals

namespace LikelihoodRatio.Screening

/-- Whether a table has a p-value below `alpha`. -/
def dependent (alpha : Float) (t : Table) : Bool :=
  match t.pValue with
  | .ok p => below alpha p
  | .error _ => false

/-- The tables without a p-value, by their indices, and what is wrong with them. -/
def failures (tables : List Table) : List (Nat × Error Float) :=
  tables.zipIdx.filterMap fun (t, i) =>
    match t.pValue with
    | .ok _ => none
    | .error e => some (i, e)

variable {alpha beta : Float}

/-! ### Indices -/

lemma dependent_iff {t : Table} :
    dependent alpha t = true ↔ t.pValue.map (below alpha) = .ok true := by
  rw [dependent]
  cases t.pValue <;> simp [Except.map]

lemma dependent_iff_test (h : 0.0 < alpha ∧ alpha < 1.0) {t : Table} :
    dependent alpha t = true ↔ (t.test alpha).result = .ok true := by
  rw [dependent_iff, Table.result_test h]

lemma dependent_of_le (hle : alpha ≤ beta) {t : Table} (h : dependent alpha t = true) :
    dependent beta t = true :=
  dependent_iff.2 (Table.map_below_of_le hle (dependent_iff.1 h))

lemma rejected_pValue (tables : List Table) (alpha : Float) :
    rejected alpha (tables.map Table.pValue).zipIdx = tables.findIdxs (dependent alpha) := by
  rw [rejected, List.zipIdx_map, List.filterMap_map, List.findIdxs_eq_filterMap_zipIdx]
  refine List.filterMap_congr fun entry _ => ?_
  obtain ⟨t, i⟩ := entry
  simp only [Function.comp_apply, Prod.map_apply, id_eq, dependent, below]
  cases t.pValue with
  | error e => rfl
  | ok p => by_cases hp : p < alpha <;> simp [hp]

lemma mem_findIdxs_iff {p : Table → Bool} {tables : List Table} {i : Nat} :
    i ∈ tables.findIdxs p ↔ ∃ t, tables[i]? = some t ∧ p t = true := by
  rw [List.mem_findIdxs_iff_exists_getElem_pos]
  constructor
  · rintro ⟨hi, hp⟩
    exact ⟨tables[i], List.getElem?_eq_getElem hi, hp⟩
  · rintro ⟨t, ht, hp⟩
    obtain ⟨hi, rfl⟩ := List.getElem?_eq_some_iff.1 ht
    exact ⟨hi, hp⟩

/-- What is chosen from more tables is chosen as before, and then from the further ones. -/
lemma findIdxs_append_shift (p : Table → Bool) (tables more : List Table) :
    (tables ++ more).findIdxs p =
      tables.findIdxs p ++ (more.findIdxs p).map (· + tables.length) := by
  have hstart : more.findIdxs p tables.length = (more.findIdxs p).map (· + tables.length) :=
    List.findIdxs_start
  rw [List.findIdxs_append, Nat.zero_add, hstart]

/-- A weaker condition chooses the same indices and others between them. -/
lemma findIdxs_sublist {p q : Table → Bool} (h : ∀ t, p t = true → q t = true)
    (tables : List Table) (start : Nat) :
    (tables.findIdxs p start).Sublist (tables.findIdxs q start) := by
  induction tables generalizing start with
  | nil => simp
  | cons t tables ih =>
    rw [List.findIdxs_cons, List.findIdxs_cons]
    by_cases hp : p t = true
    · rw [if_pos hp, if_pos (h t hp)]
      exact (ih (start + 1)).cons_cons start
    · rw [if_neg hp]
      split_ifs
      · exact (ih (start + 1)).cons start
      · exact ih (start + 1)

/-! ### The log -/

lemma skipped_pValue (tables : List Table) :
    skipped (tables.map Table.pValue).zipIdx =
      (failures tables).map fun failed => .skipped failed.1 failed.2 := by
  rw [skipped, List.zipIdx_map, List.filterMap_map, failures, List.map_filterMap]
  refine List.filterMap_congr fun entry _ => ?_
  obtain ⟨t, i⟩ := entry
  simp only [Function.comp_apply, Prod.map_apply, id_eq]
  cases t.pValue <;> rfl

lemma mem_failures_iff {tables : List Table} {i : Nat} {e : Error Float} :
    (i, e) ∈ failures tables ↔ ∃ t, tables[i]? = some t ∧ t.pValue = .error e := by
  rw [failures, List.mem_filterMap]
  constructor
  · rintro ⟨⟨t, j⟩, hmem, hfail⟩
    rw [List.mem_zipIdx_iff_getElem?] at hmem
    cases hp : t.pValue with
    | ok p => simp [hp] at hfail
    | error e' =>
      simp only [hp, Option.some.injEq, Prod.mk.injEq] at hfail
      obtain ⟨rfl, rfl⟩ := hfail
      exact ⟨t, hmem, hp⟩
  · rintro ⟨t, ht, hp⟩
    exact ⟨(t, i), List.mem_zipIdx_iff_getElem?.2 ht, by simp [hp]⟩

/-- Failures are found in the order of the tables, and at most one for each of them. -/
lemma pairwise_failures (tables : List Table) :
    ((failures tables).map Prod.fst).Pairwise (· < ·) := by
  have hindices : (failures tables).map Prod.fst =
      tables.findIdxs fun t => t.pValue matches .error _ := by
    rw [failures, List.map_filterMap, List.findIdxs_eq_filterMap_zipIdx]
    refine List.filterMap_congr fun entry _ => ?_
    obtain ⟨t, i⟩ := entry
    cases hp : t.pValue <;> simp [hp]
  rw [hindices]
  exact List.pairwise_findIdxs

/-! ### Screenings -/

lemma significant_eq_findIdxs (h : 0.0 < alpha ∧ alpha < 1.0) (tables : List Table)
    (parallel : Bool) :
    significant tables alpha parallel = ⟨.ok (tables.findIdxs (dependent alpha)),
      (failures tables).map (fun failed => .skipped failed.1 failed.2) ++
        [.screened (tables.findIdxs (dependent alpha)).length tables.length alpha
          (failures tables).length]⟩ := by
  rw [significant_eq h, rejected_pValue, skipped_pValue, List.length_map]

lemma result_significant (h : 0.0 < alpha ∧ alpha < 1.0) (tables : List Table) (parallel : Bool) :
    (significant tables alpha parallel).result = .ok (tables.findIdxs (dependent alpha)) := by
  rw [significant_eq_findIdxs h]

lemma line_skipped (i : Nat) (e : Error Float) :
    (LogEntry.skipped i e).line = s!"WARN Skipping table {i}: {e.message}" := by
  have hprefix : "WARN Skipping table " = "WARN" ++ (" " ++ "Skipping table ") := rfl
  calc (LogEntry.skipped i e).line
      = "WARN" ++ " " ++ ("Skipping table " ++ toString i ++ ": " ++ e.message) := rfl
    _ = "WARN" ++ (" " ++ "Skipping table ") ++ toString i ++ ": " ++ e.message := by
        simp only [String.append_assoc]
    _ = s!"WARN Skipping table {i}: {e.message}" := by rw [← hprefix]; rfl

/-- The line of a table that is left out names the table, and what the error is about. -/
lemma values_infix_line (i : Nat) (e : Error Float) :
    ∀ v ∈ toString i :: e.values, v.toList <:+: (LogEntry.skipped i e).line.toList := by
  intro v hv
  rw [line_skipped]
  rcases List.mem_cons.1 hv with rfl | hv
  · exact infix_append (infix_append (infix_append_self _ _) _) _
  · exact (e.values_infix_message v hv).trans (infix_append_self _ _)

/-- The line of a table that is left out tells the table and the error from all others. -/
lemma line_skipped_inj {i j : Nat} {e e' : Error Float} (he : e.isRefusal = true)
    (he' : e'.isRefusal = true) (h : (LogEntry.skipped i e).line = (LogEntry.skipped j e').line) :
    i = j ∧ e = e' := by
  rw [line_skipped, line_skipped] at h
  have htext : "WARN Skipping table " ++ toString i ++ ": " ++ e.message =
      "WARN Skipping table " ++ toString j ++ ": " ++ e'.message := h
  have hlist : (toString i).toList ++ ':' :: ' ' :: e.message.toList =
      (toString j).toList ++ ':' :: ' ' :: e'.message.toList := by
    simpa using congrArg String.toList htext
  obtain ⟨hindex, hmessage⟩ :=
    append_cons_inj (notMem_toString rfl i) (notMem_toString rfl j) hlist
  refine ⟨Nat.repr_inj.1 (String.toList_inj.1 hindex), Error.message_inj he he' ?_⟩
  exact String.toList_inj.1 (List.cons.inj hmessage).2

lemma line_screened (found all left : Nat) (level : Float) :
    (LogEntry.screened found all level left).line =
      s!"INFO {found} of {all} tables significant at alpha = "
        ++ s!"{Decimal.plain level}, {left} skipped." := by
  have hprefix : "INFO " = "INFO" ++ " " := rfl
  calc (LogEntry.screened found all level left).line
      = "INFO" ++ " " ++ (toString found ++ " of " ++ toString all
          ++ " tables significant at alpha = " ++ Decimal.plain level ++ ", "
          ++ (toString left ++ " skipped.")) := rfl
    _ = "INFO" ++ " " ++ toString found ++ " of " ++ toString all
          ++ " tables significant at alpha = "
          ++ (Decimal.plain level ++ ", " ++ toString left ++ " skipped.") := by
        simp only [String.append_assoc]
    _ = s!"INFO {found} of {all} tables significant at alpha = "
          ++ s!"{Decimal.plain level}, {left} skipped." := by rw [← hprefix]; rfl

/-- **Screening.**  A level that does not lie between zero and one is refused, and nothing enters
the log.  At any other level a screening finds, in increasing order, the indices of the tables that
a test on their own rejects.  Its log names each table without a p-value, in the order of the tables
and with what is wrong with it, and closes with the numbers of tables found, screened and left out.
The line of a table that is left out has its index and the values of the error in it, and is the
line of no other table and of no other refusal.  What is found among more tables continues what was
found before, and what is found at a level is found at every higher one. -/
theorem significant_indices_and_log (tables : List Table) (alpha : Float) (parallel : Bool) :
    (¬(0.0 < alpha ∧ alpha < 1.0) →
      significant tables alpha parallel = ⟨.error (.significanceOutOfRange alpha), []⟩) ∧
    (0.0 < alpha ∧ alpha < 1.0 →
      ∃ (indices : List Nat) (failed : List (Nat × Error Float)) (log : List LogEntry),
        significant tables alpha parallel = ⟨.ok indices, log⟩ ∧
        indices.Pairwise (· < ·) ∧
        (∀ i, i ∈ indices ↔ ∃ t, tables[i]? = some t ∧ (t.test alpha).result = .ok true) ∧
        (failed.map Prod.fst).Pairwise (· < ·) ∧
        (∀ i e, (i, e) ∈ failed ↔ ∃ t, tables[i]? = some t ∧ t.pValue = .error e) ∧
        log = failed.map (fun f => .skipped f.1 f.2) ++
          [.screened indices.length tables.length alpha failed.length] ∧
        log.map LogEntry.line =
          failed.map (fun f => s!"WARN Skipping table {f.1}: {f.2.message}") ++
            [s!"INFO {indices.length} of {tables.length} tables significant at alpha = "
              ++ s!"{Decimal.plain alpha}, {failed.length} skipped."] ∧
        (∀ i e, (i, e) ∈ failed →
          (∀ v ∈ toString i :: e.values, v.toList <:+: (LogEntry.skipped i e).line.toList) ∧
          ∀ j e', e'.isRefusal = true →
            (LogEntry.skipped i e).line = (LogEntry.skipped j e').line → i = j ∧ e = e') ∧
        (∀ more : List Table, ∃ further : List Nat,
          (significant more alpha parallel).result = .ok further ∧
          (significant (tables ++ more) alpha parallel).result =
            .ok (indices ++ further.map (· + tables.length))) ∧
        ∀ beta : Float, alpha ≤ beta → beta < 1.0 → ∃ wider : List Nat,
          (significant tables beta parallel).result = .ok wider ∧
          indices.Sublist wider) := by
  refine ⟨fun h => significant_of_not h tables parallel, fun h => ?_⟩
  refine ⟨tables.findIdxs (dependent alpha), failures tables, _,
    significant_eq_findIdxs h tables parallel, List.pairwise_findIdxs, fun i => ?_,
    pairwise_failures tables, fun i e => mem_failures_iff, rfl, ?_,
    fun i e hmem => ⟨values_infix_line i e, fun j e' he' => ?_⟩, fun more => ?_,
    fun beta hle hlt => ?_⟩
  · rw [mem_findIdxs_iff]
    simp only [dependent_iff_test h]
  · have hskipped : LogEntry.line ∘ (fun f : Nat × Error Float => .skipped f.1 f.2) =
        fun f => s!"WARN Skipping table {f.1}: {f.2.message}" :=
      funext fun f => line_skipped f.1 f.2
    rw [List.map_append, List.map_map, List.map_singleton, line_screened, hskipped]
  · obtain ⟨t, -, ht⟩ := mem_failures_iff.1 hmem
    exact line_skipped_inj (t.settled_pValue e ht) he'
  · refine ⟨_, result_significant h more parallel, ?_⟩
    rw [result_significant h, findIdxs_append_shift]
  · refine ⟨_, result_significant ⟨Binary64.lt_of_lt_of_le h.1 hle, hlt⟩ tables parallel, ?_⟩
    exact findIdxs_sublist (fun t => dependent_of_le hle) tables 0

/-- A table with one row is left out, and does not keep the other one from being looked at.  A level
of one is refused without a word. -/
theorem significant_indices_and_log_short :
    (0.0 : Float) < 0.05 ∧ (0.05 : Float) ≤ 0.1 ∧ (0.1 : Float) < 1.0 ∧
      (∃ (indices wider : List Nat) (log : List LogEntry),
        significant [[[7, 3]], [[7, 3], [2, 8]]] 0.05 true = ⟨.ok indices, log⟩ ∧
        0 ∉ indices ∧
        (1 ∈ indices ↔ (Table.test [[7, 3], [2, 8]] 0.05).result = .ok true) ∧
        .skipped 0 (.tooFewCategories 2 1) ∈ log ∧
        "1".toList <:+: (LogEntry.skipped 0 (.tooFewCategories 2 1)).line.toList ∧
        (significant [[[7, 3]], [[7, 3], [2, 8]]] 0.1 true).result = .ok wider ∧
        indices.Sublist wider) ∧
      significant [[[7, 3]]] 1.0 true = ⟨.error (.significanceOutOfRange 1.0), []⟩ := by
  have hlevel : (0.0 : Float) < 0.05 ∧ (0.05 : Float) < 1.0 := by decide +kernel
  have hlevel' : (0.05 : Float) ≤ 0.1 ∧ (0.1 : Float) < 1.0 := by decide +kernel
  have hnot : ¬((0.0 : Float) < 1.0 ∧ (1.0 : Float) < 1.0) := by decide +kernel
  obtain ⟨indices, failed, log, hfound, -, hindices, -, hfailed, hlog, -, hline, -, hwider⟩ :=
    (significant_indices_and_log [[[7, 3]], [[7, 3], [2, 8]]] 0.05 true).2 hlevel
  obtain ⟨wider, hwide, hsub⟩ := hwider 0.1 hlevel'.1 hlevel'.2
  have hshort : Table.pValue [[7, 3]] = .error (.tooFewCategories 2 1) := rfl
  have hmem : (0, Error.tooFewCategories 2 1) ∈ failed := (hfailed 0 _).2 ⟨_, rfl, hshort⟩
  have hrefused : (Table.test [[7, 3]] 0.05).result = .error (.tooFewCategories 2 1) := by
    rw [Table.test, level_bind hlevel]
    rfl
  refine ⟨hlevel.1, hlevel'.1, hlevel'.2, ⟨indices, wider, log, hfound, ?_, ?_, ?_, ?_, hwide,
    hsub⟩, (significant_indices_and_log [[[7, 3]]] 1.0 true).1 hnot⟩
  · rw [hindices]
    rintro ⟨t, ht, htest⟩
    obtain rfl : [[7, 3]] = t := by simpa using ht
    rw [hrefused] at htest
    cases htest
  · rw [hindices]
    simp
  · rw [hlog]
    exact List.mem_append_left _ (List.mem_map.2 ⟨_, hmem, rfl⟩)
  · exact (hline 0 _ hmem).1 "1" (by decide)

end LikelihoodRatio.Screening
