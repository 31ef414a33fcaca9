/-
# Leaving out empty rows and columns

An empty row adds nothing but zeros to the sums of the columns, an empty column nothing but zeros to
the sums of the rows, and the terms of their cells are zero.  If adding zero changes no sum that
starts at zero (`ZeroNeutral`), empty rows and columns can be left out of a table and its statistic
stays the same, however many there are and wherever they stand (`uncheckedStatistic_without`).
Nothing else is asked of the arithmetic: what is left is added in the order in which it stood.
-/
import LikelihoodRatio.Proofs.Table.Basic
import LikelihoodRatio.Table.Independence

namespace LikelihoodRatio

open Arithmetic

/-! ### Lists without some of their items -/

section Lists

variable {β γ σ : Type}

/-- A list without the items at the places that are out. -/
def leaveOut (out : Nat → Bool) (xs : List β) : List β :=
  (xs.zipIdx.filter fun item => !out item.2).map Prod.fst

variable {out : Nat → Bool}

@[simp] lemma leaveOut_nil (out : Nat → Bool) : leaveOut out ([] : List β) = [] := rfl

lemma leaveOut_cons (out : Nat → Bool) (x : β) (xs : List β) :
    leaveOut out (x :: xs) =
      if out 0 then leaveOut (out ∘ Nat.succ) xs else x :: leaveOut (out ∘ Nat.succ) xs := by
  have htail : ((xs.zipIdx 1).filter fun item => !out item.2).map Prod.fst =
      leaveOut (out ∘ Nat.succ) xs := by
    rw [leaveOut, List.zipIdx_succ, List.filter_map, List.map_map]
    rfl
  rw [leaveOut, List.zipIdx_cons, List.filter_cons, ← htail]
  cases out 0 <;> simp

lemma leaveOut_all (xs : List β) : leaveOut (fun _ => true) xs = [] := by simp [leaveOut]

lemma mem_of_mem_leaveOut {x : β} {xs : List β} (h : x ∈ leaveOut out xs) : x ∈ xs := by
  obtain ⟨item, hitem, rfl⟩ := List.mem_map.1 h
  exact List.fst_mem_of_mem_zipIdx (List.mem_of_mem_filter hitem)

lemma map_leaveOut (f : β → γ) (out : Nat → Bool) (xs : List β) :
    (leaveOut out xs).map f = leaveOut out (xs.map f) := by
  induction xs generalizing out with
  | nil => rfl
  | cons x xs ih =>
    rw [List.map_cons, leaveOut_cons, leaveOut_cons, ← ih]
    split_ifs <;> simp

lemma zip_leaveOut (out : Nat → Bool) (xs : List β) (ys : List γ) :
    (leaveOut out xs).zip (leaveOut out ys) = leaveOut out (xs.zip ys) := by
  induction xs generalizing out ys with
  | nil => simp
  | cons x xs ih =>
    cases ys with
    | nil => simp
    | cons y ys =>
      rw [List.zip_cons_cons, leaveOut_cons, leaveOut_cons, leaveOut_cons, ← ih]
      split_ifs <;> simp

/-- A fold that may pass over the items that are out.  Those items leave every state alone that the
fold can reach, and the other ones have the same effect in both folds. -/
lemma foldl_leaveOut {P : σ → Prop} {f g : σ → β → σ} {xs : List β} {s : σ}
    (hskip : ∀ i x, out i = true → xs[i]? = some x → ∀ s, P s → g s x = s)
    (hkeep : ∀ x ∈ xs, ∀ s, P s → f s x = g s x) (hstep : ∀ x ∈ xs, ∀ s, P s → P (g s x))
    (hs : P s) : (leaveOut out xs).foldl f s = xs.foldl g s := by
  -- The places of the tail are counted anew, which is why `out` is generalized too.
  induction xs generalizing out s with
  | nil => rfl
  | cons x xs ih =>
    have hrest : ∀ s, P s → (leaveOut (out ∘ Nat.succ) xs).foldl f s = xs.foldl g s := fun s hs =>
      ih (fun i y hi hy => hskip (i + 1) y hi (by simpa using hy))
        (fun y hy => hkeep y (List.mem_cons_of_mem _ hy))
        (fun y hy => hstep y (List.mem_cons_of_mem _ hy)) hs
    rw [leaveOut_cons, List.foldl_cons]
    split_ifs with hout
    · rw [hskip 0 x hout rfl s hs]
      exact hrest s hs
    · rw [List.foldl_cons, hkeep x List.mem_cons_self s hs]
      exact hrest _ (hstep x List.mem_cons_self s hs)

end Lists

/-! ### Adding zero -/

/-- Adding zero changes no sum that starts at zero.  It does not change zero, and if it does not
change a number, it does not change the sums that start with this number. -/
structure ZeroNeutral (α : Type) [Arithmetic α] : Prop where
  ofInt_zero : (ofInt 0 : α) = 0.0
  zero_add_zero : (0.0 : α) + 0.0 = 0.0
  add_add_zero : ∀ x y : α, x + 0.0 = x → x + y + 0.0 = x + y

namespace ZeroNeutral

variable {α : Type} [Arithmetic α] {out : Nat → Bool} {counts : List Int}

/-- Empty cells may be left out of a sum of counts. -/
lemma countSum_leaveOut (h : ZeroNeutral α)
    (hzero : ∀ j count, out j = true → counts[j]? = some count → count = 0) :
    (countSum (leaveOut out counts) : α) = countSum counts := by
  rw [Table.countSum_eq_foldl, Table.countSum_eq_foldl]
  refine foldl_leaveOut (P := fun s => s + 0.0 = s) ?_ (fun _ _ _ _ => rfl) ?_ h.zero_add_zero
  · intro j count hout hcount s hs
    rw [hzero j count hout hcount, h.ofInt_zero, hs]
  · exact fun count _ s hs => h.add_add_zero s _ hs

lemma countSum_eq_zero (h : ZeroNeutral α) (hzero : ∀ count ∈ counts, count = 0) :
    (countSum counts : α) = 0.0 := by
  have hall : (countSum (leaveOut (fun _ => true) counts) : α) = countSum counts :=
    h.countSum_leaveOut fun j count _ hcount => hzero count (List.mem_of_getElem? hcount)
  rw [← hall, leaveOut_all]
  rfl

end ZeroNeutral

namespace Table

/-- A table without some of its rows and columns. -/
def without (rows cols : Nat → Bool) (t : Table) : Table :=
  (leaveOut rows t).map (leaveOut cols)

/-- Nothing is counted in the rows and the columns that are out. -/
structure Vacant (rows cols : Nat → Bool) (t : Table) : Prop where
  row : ∀ i row, rows i = true → t[i]? = some row → ∀ count ∈ row, count = 0
  col : ∀ j, cols j = true → ∀ count ∈ t.column j, count = 0

section Margins

variable {α : Type} [Arithmetic α] {rows cols : Nat → Bool} {t : Table}

lemma Vacant.cell (h : t.Vacant rows cols) {row : List Int} (hrow : row ∈ t) {j : Nat}
    {count : Int} (hj : cols j = true) (hcount : row[j]? = some count) : count = 0 :=
  h.col j hj count (List.mem_filterMap.2 ⟨row, hrow, hcount⟩)

lemma rowSums_without (hzero : ZeroNeutral α) (h : t.Vacant rows cols) :
    ((t.without rows cols).rowSums : List α) = leaveOut rows t.rowSums := by
  rw [rowSums, rowSums, without, List.map_map, ← map_leaveOut]
  refine List.map_congr_left fun row hrow => ?_
  exact hzero.countSum_leaveOut fun j count hj hcount =>
    h.cell (mem_of_mem_leaveOut hrow) hj hcount

lemma total_without (hzero : ZeroNeutral α) (h : t.Vacant rows cols) :
    (Margins.ofTable (t.without rows cols) : Margins α).total = (Margins.ofTable t).total := by
  rw [Margins.total, Margins.total, Margins.ofTable, Margins.ofTable, rowSums_without hzero h,
    leftSum, leftSum]
  refine foldl_leaveOut (P := fun s => s + 0.0 = s) ?_ (fun _ _ _ _ => rfl) ?_
    hzero.zero_add_zero
  · intro i r hi hr s hs
    rw [rowSums, List.getElem?_map, Option.map_eq_some_iff] at hr
    obtain ⟨row, hrow, rfl⟩ := hr
    rw [hzero.countSum_eq_zero (h.row i row hi hrow), hs]
  · exact fun r _ s hs => hzero.add_add_zero s r hs

/-! ### Sums of the columns -/

lemma addRow_leaveOut (out : Nat → Bool) (sums : List α) (row : List Int) :
    addRow (leaveOut out sums) (leaveOut out row) = leaveOut out (addRow sums row) := by
  induction sums generalizing out row with
  | nil => simp [addRow]
  | cons s sums ih =>
    cases row with
    | nil => simp [addRow]
    | cons x row =>
      rw [addRow, leaveOut_cons, leaveOut_cons, leaveOut_cons, ← ih]
      split_ifs <;> simp [addRow]

lemma addRow_add_zero (hzero : ZeroNeutral α) {sums : List α} (row : List Int)
    (h : ∀ s ∈ sums, s + 0.0 = s) : ∀ s ∈ addRow sums row, s + 0.0 = s := by
  induction sums generalizing row with
  | nil => simp [addRow]
  | cons s sums ih =>
    cases row with
    | nil => simpa [addRow] using h
    | cons x row =>
      rw [List.forall_mem_cons] at h
      rw [addRow, List.forall_mem_cons]
      exact ⟨hzero.add_add_zero s _ h.1, ih row h.2⟩

lemma addRow_zero (hzero : ZeroNeutral α) {sums : List α} {row : List Int}
    (h : ∀ s ∈ sums, s + 0.0 = s) (hrow : ∀ count ∈ row, count = 0) : addRow sums row = sums := by
  induction sums generalizing row with
  | nil => simp [addRow]
  | cons s sums ih =>
    cases row with
    | nil => simp [addRow]
    | cons x row =>
      rw [List.forall_mem_cons] at h hrow
      rw [addRow, hrow.1, hzero.ofInt_zero, h.1, ih h.2 hrow.2]

lemma replicate_width_without (hrect : t.Rectangular) (hne : leaveOut rows t ≠ []) :
    List.replicate (t.without rows cols).width (0.0 : α) =
      leaveOut cols (List.replicate t.width 0.0) := by
  obtain ⟨row, rest, hrows⟩ := List.exists_cons_of_ne_nil hne
  have hrow : row ∈ t := mem_of_mem_leaveOut (hrows ▸ List.mem_cons_self)
  have hwidth : (t.without rows cols).width = (leaveOut cols row).length := by
    rw [without, hrows]
    rfl
  rw [hwidth, ← hrect row hrow, ← List.map_const', ← List.map_const', map_leaveOut]

/-- The sums of the columns that are left, as long as a row is left. -/
lemma colSums_without (hzero : ZeroNeutral α) (hrect : t.Rectangular) (h : t.Vacant rows cols)
    (hne : leaveOut rows t ≠ []) :
    ((t.without rows cols).colSums : List α) = leaveOut cols t.colSums := by
  have hrows : (leaveOut rows t).foldl addRow (List.replicate t.width (0.0 : α)) =
      t.foldl addRow (List.replicate t.width 0.0) := by
    refine foldl_leaveOut (P := fun sums => ∀ s ∈ sums, s + 0.0 = s) ?_ (fun _ _ _ _ => rfl) ?_ ?_
    · exact fun i row hi hrow sums hsums => addRow_zero hzero hsums (h.row i row hi hrow)
    · exact fun row _ sums hsums => addRow_add_zero hzero row hsums
    · intro s hs
      rw [List.eq_of_mem_replicate hs, hzero.zero_add_zero]
  calc ((t.without rows cols).colSums : List α)
      = (leaveOut rows t).foldl (fun sums row => addRow sums (leaveOut cols row))
          (leaveOut cols (List.replicate t.width 0.0)) := by
        rw [colSums, replicate_width_without hrect hne, without, List.foldl_map]
    _ = leaveOut cols ((leaveOut rows t).foldl addRow (List.replicate t.width 0.0)) :=
        List.foldl_hom (leaveOut cols) fun sums row => addRow_leaveOut cols sums row
    _ = leaveOut cols t.colSums := by rw [hrows, colSums]

/-! ### The statistic -/

/-- A running sum after the terms of a row.  The row comes with its sum. -/
def addTerms (total : α) (cols : List α) (sum : α) (line : List Int × α) : α :=
  (line.1.zip cols).foldl (fun sum cell =>
    sum + term cell.1 (Margins.expectedOf total line.2 cell.2)) sum

lemma statisticOf_eq_addTerms (t : Table) (m : Margins α) :
    t.statisticOf m = if m.total == 0.0 then 0.0 else
      2.0 * (t.zip m.rows).foldl (addTerms m.total m.cols) 0.0 := rfl

variable {total s : α}

/-- An empty cell adds nothing, whatever is expected of it. -/
lemma add_term_zero (hs : s + 0.0 = s) (expected : α) : s + term 0 expected = s := by
  rw [term, if_pos rfl, hs]

lemma addTerms_add_zero (hzero : ZeroNeutral α) (hs : s + 0.0 = s) (sums : List α)
    (line : List Int × α) : addTerms total sums s line + 0.0 = addTerms total sums s line :=
  List.foldlRecOn (motive := fun s => s + 0.0 = s) _ _ hs fun s hs _ _ =>
    hzero.add_add_zero s _ hs

lemma addTerms_zero (hs : s + 0.0 = s) (sums : List α) {line : List Int × α}
    (hline : ∀ count ∈ line.1, count = 0) : addTerms total sums s line = s := by
  refine List.foldlRecOn (motive := fun sum => sum = s) _ _ rfl fun sum hsum cell hcell => ?_
  rw [hsum, hline cell.1 (List.of_mem_zip hcell).1, add_term_zero hs]

lemma addTerms_leaveOut (hzero : ZeroNeutral α) (hs : s + 0.0 = s) (sums : List α) (r : α)
    {out : Nat → Bool} {row : List Int}
    (hrow : ∀ j count, out j = true → row[j]? = some count → count = 0) :
    addTerms total (leaveOut out sums) s (leaveOut out row, r) =
      addTerms total sums s (row, r) := by
  rw [addTerms, addTerms, zip_leaveOut]
  refine foldl_leaveOut (P := fun s => s + 0.0 = s) ?_ (fun _ _ _ _ => rfl) ?_ hs
  · intro j cell hj hcell s hs
    obtain ⟨hcount, -⟩ := List.getElem?_zip_eq_some.1 hcell
    rw [hrow j cell.1 hj hcount, add_term_zero hs]
  · exact fun cell _ s hs => hzero.add_add_zero s _ hs

/-- The loop over the rows comes to the same sum with and without the empty rows and columns. -/
lemma foldl_addTerms_without (hzero : ZeroNeutral α) (h : t.Vacant rows cols) (sums : List α) :
    ((t.without rows cols).zip (leaveOut rows t.rowSums)).foldl
        (addTerms total (leaveOut cols sums)) 0.0 =
      (t.zip t.rowSums).foldl (addTerms total sums) (0.0 : α) := by
  rw [without, List.zip_map_left, List.foldl_map, zip_leaveOut]
  refine foldl_leaveOut (P := fun s => s + 0.0 = s) ?_ ?_ ?_ hzero.zero_add_zero
  · intro i line hi hline s hs
    obtain ⟨hrow, -⟩ := List.getElem?_zip_eq_some.1 hline
    exact addTerms_zero hs sums (h.row i line.1 hi hrow)
  · intro line hline s hs
    exact addTerms_leaveOut hzero hs sums line.2 fun j count hj hcount =>
      h.cell (List.of_mem_zip hline).1 hj hcount
  · exact fun line _ s hs => addTerms_add_zero hzero hs sums line

/-- Empty rows and columns may be left out of a table. -/
lemma uncheckedStatistic_without (hzero : ZeroNeutral α) (hrect : t.Rectangular)
    (h : t.Vacant rows cols) :
    ((t.without rows cols).uncheckedStatistic : α) = t.uncheckedStatistic := by
  have hfold : ((t.without rows cols).zip (leaveOut rows t.rowSums)).foldl
        (addTerms (Margins.ofTable t).total (t.without rows cols).colSums) 0.0 =
      (t.zip t.rowSums).foldl (addTerms (Margins.ofTable t).total t.colSums) (0.0 : α) := by
    rw [← foldl_addTerms_without hzero h]
    by_cases hne : leaveOut rows t = []
    · -- Without rows there are no columns to sum, and no cells that would need the sums.
      rw [without, hne]
      rfl
    · rw [colSums_without hzero hrect h hne]
  have hrows : (Margins.ofTable (t.without rows cols) : Margins α).rows = leaveOut rows t.rowSums :=
    rowSums_without hzero h
  rw [uncheckedStatistic, uncheckedStatistic, statisticOf_eq_addTerms, statisticOf_eq_addTerms,
    total_without hzero h, hrows]
  exact congrArg
    (fun sum => if (Margins.ofTable t : Margins α).total == 0.0 then 0.0 else 2.0 * sum) hfold

end Margins

end Table

end LikelihoodRatio
