/-
# What a failed check says

A check that fails reports the first violation that it finds: the first item of a list that has some
property, together with its index (`FirstAt`).  The cells of a table are looked at row by row, so
that the first negative one is the first of the first row that has any (`Check.cells_eq_error_iff`).
-/
import LikelihoodRatio.Proofs.Checks
import Mathlib.Data.List.Basic

namespace LikelihoodRatio

/-- The item of a list at an index is the first one with a property. -/
structure FirstAt {β : Type} (p : β → Prop) (xs : List β) (i : Nat) (x : β) : Prop where
  getElem? : xs[i]? = some x
  holds : p x
  before : ∀ k < i, ∀ y, xs[k]? = some y → ¬p y

/-! ### First items -/

section FirstAt

variable {β γ : Type} {p : β → Prop} {xs : List β} {i : Nat} {x : β}

/-- The items before the first one, and those after it. -/
lemma firstAt_iff_append :
    FirstAt p xs i x ↔ ∃ as bs, xs = as ++ x :: bs ∧ as.length = i ∧ p x ∧ ∀ a ∈ as, ¬p a := by
  constructor
  · rintro ⟨hx, hp, hbefore⟩
    obtain ⟨hi, rfl⟩ := List.getElem?_eq_some_iff.1 hx
    have hlength : (xs.take i).length = i := List.length_take_of_le (Nat.le_of_lt hi)
    refine ⟨xs.take i, xs.drop (i + 1), ?_, hlength, hp, ?_⟩
    · rw [← List.drop_eq_getElem_cons hi, List.take_append_drop]
    · intro a ha
      obtain ⟨k, hk, rfl⟩ := List.mem_iff_getElem.1 ha
      rw [List.length_take] at hk
      exact hbefore k (by omega) _ (by rw [List.getElem_take, List.getElem?_eq_getElem])
  · rintro ⟨as, bs, rfl, rfl, hp, has⟩
    refine ⟨by simp, hp, fun k hk y hy => has y ?_⟩
    rw [List.getElem?_append_left hk] at hy
    exact List.mem_of_getElem? hy

lemma firstAt_congr {q : β → Prop} (h : ∀ x ∈ xs, p x ↔ q x) :
    FirstAt p xs i x ↔ FirstAt q xs i x := by
  constructor
  · rintro ⟨hx, hp, hbefore⟩
    exact ⟨hx, (h x (List.mem_of_getElem? hx)).1 hp, fun k hk y hy hq =>
      hbefore k hk y hy ((h y (List.mem_of_getElem? hy)).2 hq)⟩
  · rintro ⟨hx, hq, hbefore⟩
    exact ⟨hx, (h x (List.mem_of_getElem? hx)).2 hq, fun k hk y hy hp =>
      hbefore k hk y hy ((h y (List.mem_of_getElem? hy)).1 hp)⟩

/-- The first item of two lists, one after the other, is in the first list or else in the second. -/
lemma firstAt_append_iff {ys : List β} :
    FirstAt p (xs ++ ys) i x ↔
      FirstAt p xs i x ∨
        (∀ y ∈ xs, ¬p y) ∧ xs.length ≤ i ∧ FirstAt p ys (i - xs.length) x := by
  constructor
  · rintro ⟨hx, hp, hbefore⟩
    rcases Nat.lt_or_ge i xs.length with hi | hi
    · rw [List.getElem?_append_left hi] at hx
      refine .inl ⟨hx, hp, fun k hk y hy => hbefore k hk y ?_⟩
      rw [List.getElem?_append_left (Nat.lt_trans hk hi), hy]
    · rw [List.getElem?_append_right hi] at hx
      refine .inr ⟨fun y hy => ?_, hi, hx, hp, fun k hk y hy => hbefore (k + xs.length) ?_ y ?_⟩
      · obtain ⟨k, hk, rfl⟩ := List.mem_iff_getElem.1 hy
        refine hbefore k (Nat.lt_of_lt_of_le hk hi) _ ?_
        rw [List.getElem?_append_left hk, List.getElem?_eq_getElem hk]
      · exact Nat.add_lt_of_lt_sub hk
      · rw [List.getElem?_append_right (Nat.le_add_left _ _), Nat.add_sub_cancel, hy]
  · rintro (⟨hx, hp, hbefore⟩ | ⟨hxs, hi, hx, hp, hbefore⟩)
    · obtain ⟨hi, -⟩ := List.getElem?_eq_some_iff.1 hx
      refine ⟨by rw [List.getElem?_append_left hi, hx], hp, fun k hk y hy => hbefore k hk y ?_⟩
      rwa [List.getElem?_append_left (Nat.lt_trans hk hi)] at hy
    · refine ⟨by rw [List.getElem?_append_right hi, hx], hp, fun k hk y hy => ?_⟩
      rcases Nat.lt_or_ge k xs.length with hk' | hk'
      · rw [List.getElem?_append_left hk'] at hy
        exact hxs y (List.mem_of_getElem? hy)
      · rw [List.getElem?_append_right hk'] at hy
        exact hbefore _ (Nat.sub_lt_sub_right hk' hk) y hy

lemma firstAt_map_iff {f : γ → β} {ys : List γ} :
    FirstAt p (ys.map f) i x ↔ ∃ y, FirstAt (fun y => p (f y)) ys i y ∧ f y = x := by
  constructor
  · rintro ⟨hx, hp, hbefore⟩
    rw [List.getElem?_map, Option.map_eq_some_iff] at hx
    obtain ⟨y, hy, rfl⟩ := hx
    exact ⟨y, ⟨hy, hp, fun k hk z hz => hbefore k hk (f z) (by rw [List.getElem?_map, hz]; rfl)⟩,
      rfl⟩
  · rintro ⟨y, ⟨hy, hp, hbefore⟩, rfl⟩
    refine ⟨by rw [List.getElem?_map, hy]; rfl, hp, fun k hk z hz => ?_⟩
    rw [List.getElem?_map, Option.map_eq_some_iff] at hz
    obtain ⟨y', hy', rfl⟩ := hz
    exact hbefore k hk y' hy'

/-- An item that is kept with its index. -/
lemma firstAt_zipIdx_iff (p : β → Prop) {c : β × Nat} :
    FirstAt (fun c => p c.1) xs.zipIdx i c ↔ FirstAt p xs i c.1 ∧ c.2 = i := by
  have hget (k : Nat) (d : β × Nat) : xs.zipIdx[k]? = some d ↔ xs[k]? = some d.1 ∧ d.2 = k := by
    rw [List.getElem?_zipIdx, Option.map_eq_some_iff]
    constructor
    · rintro ⟨y, hy, rfl⟩
      exact ⟨hy, Nat.zero_add k⟩
    · rintro ⟨hy, hk⟩
      exact ⟨d.1, hy, Prod.ext rfl ((Nat.zero_add k).trans hk.symm)⟩
  constructor
  · rintro ⟨hc, hp, hbefore⟩
    obtain ⟨hx, hi⟩ := (hget i c).1 hc
    exact ⟨⟨hx, hp, fun k hk y hy => hbefore k hk (y, k) ((hget k (y, k)).2 ⟨hy, rfl⟩)⟩, hi⟩
  · rintro ⟨⟨hx, hp, hbefore⟩, hi⟩
    exact ⟨(hget i c).2 ⟨hx, hi⟩, hp, fun k hk d hd => hbefore k hk d.1 ((hget k d).1 hd).1⟩

/-! ### Searches -/

variable {b : β → Bool}

lemma find?_eq_some_iff_firstAt :
    xs.find? b = some x ↔ ∃ i, FirstAt (fun x => b x = true) xs i x := by
  simp only [List.find?_eq_some_iff_append, firstAt_iff_append, Bool.not_eq_true', Bool.not_eq_true]
  constructor
  · rintro ⟨hx, as, bs, hxs, has⟩
    exact ⟨as.length, as, bs, hxs, rfl, hx, has⟩
  · rintro ⟨_, as, bs, hxs, -, hx, has⟩
    exact ⟨hx, as, bs, hxs, has⟩

lemma findIdx?_eq_some_iff_firstAt :
    xs.findIdx? b = some i ↔ ∃ x, FirstAt (fun x => b x = true) xs i x := by
  rw [List.findIdx?_eq_some_iff_getElem]
  constructor
  · rintro ⟨hi, hx, hbefore⟩
    refine ⟨xs[i], List.getElem?_eq_getElem hi, hx, fun k hk y hy => ?_⟩
    obtain ⟨_, rfl⟩ := List.getElem?_eq_some_iff.1 hy
    exact hbefore k hk
  · rintro ⟨x, hx, hb, hbefore⟩
    obtain ⟨hi, rfl⟩ := List.getElem?_eq_some_iff.1 hx
    exact ⟨hi, hb, fun k hk => hbefore k hk _ (List.getElem?_eq_getElem (Nat.lt_trans hk hi))⟩

lemma findSome?_eq_some_iff_firstAt {f : β → Option γ} {y : γ} :
    xs.findSome? f = some y ↔ ∃ i x, FirstAt (fun x => (f x).isSome = true) xs i x ∧
      f x = some y := by
  simp only [List.findSome?_eq_some_iff, firstAt_iff_append, Option.not_isSome_iff_eq_none]
  constructor
  · rintro ⟨as, x, bs, hxs, hx, has⟩
    exact ⟨as.length, x, ⟨as, bs, hxs, rfl, by rw [hx]; rfl, has⟩, hx⟩
  · rintro ⟨_, x, ⟨as, bs, hxs, -, -, has⟩, hx⟩
    exact ⟨as, x, bs, hxs, hx, has⟩

/-- A search among items that are kept with their indices. -/
lemma find?_zipIdx_eq_some_iff (b : β → Bool) {c : β × Nat} :
    xs.zipIdx.find? (fun c => b c.1) = some c ↔ FirstAt (fun x => b x = true) xs c.2 c.1 := by
  rw [find?_eq_some_iff_firstAt]
  simp only [firstAt_zipIdx_iff (fun x => b x = true), exists_eq_right']

end FirstAt

/-! ### Sequences of checks -/

section Bind

variable {ε β γ : Type} {e : ε}

/-- A sequence of checks fails with the first check that fails. -/
lemma check_bind_eq_error_iff {x : Except ε Unit} {f : Unit → Except ε γ} :
    x >>= f = .error e ↔ x = .error e ∨ x = .ok () ∧ f () = .error e := by
  cases x with
  | error e' => simp [bind, Except.bind]
  | ok u => simp [bind, Except.bind]

/-- What is computed from a result does not fail. -/
lemma bind_pure_eq_error_iff {x : Except ε β} {f : β → γ} :
    (x >>= fun b => pure (f b)) = .error e ↔ x = .error e := by
  cases x with
  | error e' => simp [bind, Except.bind]
  | ok b => simp [bind, Except.bind, pure, Except.pure]

lemma bind_pure_eq_ok_iff {x : Except ε β} {f : β → γ} :
    (∃ c, (x >>= fun b => pure (f b)) = .ok c) ↔ ∃ b, x = .ok b := by
  cases x with
  | error e' => simp [bind, Except.bind]
  | ok b => simp [bind, Except.bind, pure, Except.pure]

end Bind

/-! ### Checks -/

namespace Check

variable {α : Type} {e : Error α}

lemma categories_eq_error_iff {found required : Nat} :
    categories found required = .error e ↔
      found < required ∧ .tooFewCategories required found = e := by
  rw [categories]
  split_ifs with h
  · simp [h]
  · simp [h]

lemma sameLength_eq_error_iff {β γ : Type} {a : List β} {b : List γ} :
    sameLength a b = .error e ↔ a.length ≠ b.length ∧ .lengthMismatch a.length b.length = e := by
  rw [sameLength]
  split_ifs with h
  · simp [h]
  · simp [h]

lemma positioned_eq_error_iff {cells : List (Int × Nat)} :
    positioned cells = .error e ↔
      ∃ cell, cells.find? (fun cell => decide (cell.1 < 0)) = some cell ∧
        .negativeCount cell.2 cell.1 = e := by
  rw [positioned]
  cases cells.find? (fun cell => decide (cell.1 < 0)) with
  | none => simp
  | some cell => simp

/-- The first negative count among counts that are kept with their indices. -/
lemma find?_neg_eq_some_iff {observed : List Int} {cell : Int × Nat} :
    observed.zipIdx.find? (fun cell => decide (cell.1 < 0)) = some cell ↔
      FirstAt (· < 0) observed cell.2 cell.1 := by
  rw [find?_zipIdx_eq_some_iff fun count => decide (count < 0)]
  exact firstAt_congr fun count _ => decide_eq_true_iff

/-- The check of counts reports the first negative one. -/
lemma counts_eq_error_iff {observed : List Int} :
    counts observed = .error e ↔
      ∃ index value, FirstAt (· < 0) observed index value ∧ .negativeCount index value = e := by
  rw [counts, positioned_eq_error_iff]
  simp only [find?_neg_eq_some_iff]
  constructor
  · rintro ⟨⟨value, index⟩, h, he⟩
    exact ⟨index, value, h, he⟩
  · rintro ⟨index, value, h, he⟩
    exact ⟨(value, index), h, he⟩

/-- The check of a table reports the first negative cell of the first row that has one. -/
lemma cells_eq_error_iff {t : Table} :
    cells t = .error e ↔
      ∃ i row j value, FirstAt (fun row => ∃ count ∈ row, count < 0) t i row ∧
        FirstAt (· < 0) row j value ∧ .negativeCount (i * t.width + j) value = e := by
  -- The search in a row, whose cells have positions in the table.
  let search (c : List Int × Nat) : Option (Int × Nat) :=
    (c.1.zipIdx.find? fun d => decide (d.1 < 0)).map fun d => (d.1, c.2 * t.width + d.2)
  have hcells : t.cells.find? (fun cell => decide (cell.1 < 0)) = t.zipIdx.findSome? search := by
    rw [Table.cells, List.find?_flatMap]
    exact congrArg (List.findSome? · t.zipIdx) (funext fun c => List.find?_map)
  have hsearch (c : List Int × Nat) (cell : Int × Nat) : search c = some cell ↔
      ∃ j value, FirstAt (· < 0) c.1 j value ∧ (value, c.2 * t.width + j) = cell := by
    simp only [search, Option.map_eq_some_iff, find?_neg_eq_some_iff, Prod.exists]
    exact exists_comm
  have hsome (c : List Int × Nat) : (search c).isSome = true ↔ ∃ count ∈ c.1, count < 0 := by
    conv_rhs => rw [← List.zipIdx_map_fst 0 c.1]
    rw [Option.isSome_map, List.find?_isSome]
    simp only [List.mem_map, exists_exists_and_eq_and, decide_eq_true_eq]
  have hindex (i : Nat) (c : List Int × Nat) :
      FirstAt (fun c => ∃ count ∈ c.1, count < 0) t.zipIdx i c ↔
        FirstAt (fun row => ∃ count ∈ row, count < 0) t i c.1 ∧ c.2 = i :=
    firstAt_zipIdx_iff fun row => ∃ count ∈ row, count < 0
  rw [cells, positioned_eq_error_iff, hcells]
  simp only [findSome?_eq_some_iff_firstAt, hsome, hsearch, hindex]
  constructor
  · rintro ⟨_, ⟨i, ⟨row, _⟩, ⟨hrow, rfl⟩, j, value, hvalue, rfl⟩, he⟩
    exact ⟨_, row, j, value, hrow, hvalue, he⟩
  · rintro ⟨i, row, j, value, hrow, hvalue, he⟩
    exact ⟨_, ⟨i, (row, i), ⟨hrow, rfl⟩, j, value, hvalue, rfl⟩, he⟩

/-- The check of lengths reports that of the first row that differs. -/
lemma rowLengths_eq_error_iff {t : Table} {width : Nat} :
    rowLengths t width = .error e ↔
      ∃ i row, FirstAt (fun row => row.length ≠ width) t i row ∧
        .lengthMismatch width row.length = e := by
  have hfirst : (∃ i row, FirstAt (fun row => row.length ≠ width) t i row ∧
      .lengthMismatch width row.length = e) ↔
        ∃ row, t.find? (fun row => row.length != width) = some row ∧
          .lengthMismatch width row.length = e := by
    simp only [find?_eq_some_iff_firstAt, bne_iff_ne, ← exists_and_right]
    exact exists_comm
  rw [rowLengths, hfirst]
  cases t.find? (fun row => row.length != width) <;> simp

lemma rectangular_eq_error_iff {t : Table} :
    rectangular t = .error e ↔
      t.length < 2 ∧ .tooFewCategories 2 t.length = e ∨
      2 ≤ t.length ∧ t.width < 2 ∧ .tooFewCategories 2 t.width = e ∨
      2 ≤ t.length ∧ 2 ≤ t.width ∧ ∃ i row, FirstAt (fun row => row.length ≠ t.width) t i row ∧
        .lengthMismatch t.width row.length = e := by
  rw [rectangular_eq, check_bind_eq_error_iff, check_bind_eq_error_iff, categories_eq_error_iff,
    categories_eq_error_iff, categories_eq_ok_iff, categories_eq_ok_iff, and_or_left,
    rowLengths_eq_error_iff]

variable [Arithmetic α]

/-- The check of expected values reports the first one that is not finite and positive. -/
lemma expected_eq_error_iff {values : List α} :
    expected values = .error e ↔
      ∃ index value, FirstAt (fun v => ¬(Arithmetic.isFinite v = true ∧ (0.0 : α) < v)) values
        index value ∧ .nonPositiveExpected index value = e := by
  let bad (cell : α × Nat) : Bool := !(Arithmetic.isFinite cell.1 && decide ((0.0 : α) < cell.1))
  have hfirst (cell : α × Nat) : values.zipIdx.find? bad = some cell ↔
      FirstAt (fun v => ¬(Arithmetic.isFinite v = true ∧ (0.0 : α) < v)) values cell.2 cell.1 := by
    rw [find?_zipIdx_eq_some_iff fun v : α => !(Arithmetic.isFinite v && decide ((0.0 : α) < v))]
    exact firstAt_congr fun v _ => by simp [imp_iff_not_or]
  have hreport : expected values = .error e ↔
      ∃ cell, values.zipIdx.find? bad = some cell ∧ .nonPositiveExpected cell.2 cell.1 = e := by
    rw [expected]
    cases values.zipIdx.find? bad with
    | none => simp
    | some cell => simp
  simp only [hreport, hfirst]
  constructor
  · rintro ⟨⟨value, index⟩, h, he⟩
    exact ⟨index, value, h, he⟩
  · rintro ⟨index, value, h, he⟩
    exact ⟨(value, index), h, he⟩

lemma level_eq_error_iff {alpha : α} :
    level alpha = .error e ↔
      ¬((0.0 : α) < alpha ∧ alpha < (1.0 : α)) ∧ .significanceOutOfRange alpha = e := by
  rw [level]
  split_ifs with h
  · simp [h]
  · simp [h]

lemma marginals_eq_error_iff {rowSums colSums : List α} :
    marginals rowSums colSums = .error e ↔
      (∃ i r, FirstAt (fun r => (r == 0.0) = true) rowSums i r ∧ .degenerateMarginal (.row i) = e) ∨
      (∀ r ∈ rowSums, (r == 0.0) = false) ∧
        ∃ j c, FirstAt (fun c => (c == 0.0) = true) colSums j c ∧
          .degenerateMarginal (.column j) = e := by
  have hfirst (sums : List α) (f : Nat → Error α) :
      (∃ i r, FirstAt (fun r => (r == 0.0) = true) sums i r ∧ f i = e) ↔
        ∃ i, sums.findIdx? (· == 0.0) = some i ∧ f i = e := by
    simp only [findIdx?_eq_some_iff_firstAt, exists_and_right]
  have hrows : (∀ r ∈ rowSums, (r == 0.0) = false) ↔ rowSums.findIdx? (· == 0.0) = none := by simp
  rw [marginals, hrows, hfirst rowSums fun i => .degenerateMarginal (.row i),
    hfirst colSums fun j => .degenerateMarginal (.column j)]
  cases rowSums.findIdx? (· == 0.0) <;> cases colSums.findIdx? (· == 0.0) <;> simp

end Check

end LikelihoodRatio
