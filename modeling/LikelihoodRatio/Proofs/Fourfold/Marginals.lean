/-
# Fourfold tables from marginal counts

How often two events occur, together and each of them, and the number of observations imply the
cells of a fourfold table (`implied`).  There is such a table if none of the cells is negative, and
otherwise the first negative number is reported: one of the counts that were given, or else one of
the cells (`FirstNegative`).

The counts are signed words of 64 bits.  The table can be computed in words (`ofWords`), the last
cell in words of 128 bits, since the counts that are subtracted from the total can leave the range
of 64 bits on the way.  No step then leaves the range of its words, because each one relies on the
checks before it (`run_ofWords`).
-/
import LikelihoodRatio.Proofs.Failures
import LikelihoodRatio.Proofs.Fourfold.Basic

namespace LikelihoodRatio

/-! ### Signed words -/

namespace Word

variable {w : Nat}

/-- The difference of two signed words, unless it leaves their range. -/
def sub? (x y : BitVec w) : Option (BitVec w) :=
  if x.ssubOverflow y then none else some (x - y)

/-- The sum of two signed words, unless it leaves their range. -/
def add? (x y : BitVec w) : Option (BitVec w) :=
  if x.saddOverflow y then none else some (x + y)

/-- A word of 64 bits as one of 128 bits. -/
def wide (x : BitVec 64) : BitVec 128 := x.signExtend 128

/-- A word of 128 bits as one of 64 bits, unless it leaves their range. -/
def narrow? (x : BitVec 128) : Option (BitVec 64) :=
  if smallestCount ≤ x.toInt ∧ x.toInt ≤ largestCount then some (.ofInt 64 x.toInt) else none

/-- A number that a word stands for. -/
def Fits (w : Nat) (n : Int) : Prop := ∃ x : BitVec w, x.toInt = n

lemma sub?_eq_some {x y : BitVec w} (h : Fits w (x.toInt - y.toInt)) :
    ∃ z, sub? x y = some z ∧ z.toInt = x.toInt - y.toInt := by
  obtain ⟨z, hz⟩ := h
  have hle := BitVec.le_toInt z
  have hlt := BitVec.toInt_lt (x := z)
  have hfits : ¬x.ssubOverflow y = true := by
    simp only [BitVec.ssubOverflow, Bool.or_eq_true, decide_eq_true_eq]
    omega
  exact ⟨x - y, if_neg hfits, BitVec.toInt_sub_of_not_ssubOverflow hfits⟩

lemma add?_eq_some {x y : BitVec w} (h : Fits w (x.toInt + y.toInt)) :
    ∃ z, add? x y = some z ∧ z.toInt = x.toInt + y.toInt := by
  obtain ⟨z, hz⟩ := h
  have hle := BitVec.le_toInt z
  have hlt := BitVec.toInt_lt (x := z)
  have hfits : ¬x.saddOverflow y = true := by
    simp only [BitVec.saddOverflow, Bool.or_eq_true, decide_eq_true_eq]
    omega
  exact ⟨x + y, if_neg hfits, BitVec.toInt_add_of_not_saddOverflow hfits⟩

lemma fits_count_iff {n : Int} : Fits 64 n ↔ smallestCount ≤ n ∧ n ≤ largestCount := by
  constructor
  · rintro ⟨x, rfl⟩
    have hle := BitVec.le_toInt x
    have hlt := BitVec.toInt_lt (x := x)
    unfold smallestCount largestCount
    omega
  · rintro ⟨hle, hlt⟩
    exact ⟨.ofInt 64 n, BitVec.toInt_ofInt_eq_self (by decide) hle (Int.lt_add_one_of_le hlt)⟩

/-- Words of 128 bits have room for sums of a few counts. -/
lemma fits_wide {n : Int} (h : 8 * smallestCount ≤ n ∧ n ≤ 8 * largestCount) : Fits 128 n := by
  unfold smallestCount largestCount at h
  exact ⟨.ofInt 128 n, BitVec.toInt_ofInt_eq_self (by decide) (by omega) (by omega)⟩

lemma toInt_wide (x : BitVec 64) : (wide x).toInt = x.toInt :=
  BitVec.toInt_signExtend_of_le (by decide)

lemma narrow?_eq_some {x : BitVec 128} (h : smallestCount ≤ x.toInt ∧ x.toInt ≤ largestCount) :
    ∃ y, narrow? x = some y ∧ y.toInt = x.toInt := by
  obtain ⟨hle, hlt⟩ := h
  exact ⟨.ofInt 64 x.toInt, if_pos ⟨hle, hlt⟩,
    BitVec.toInt_ofInt_eq_self (by decide) hle (Int.lt_add_one_of_le hlt)⟩

end Word

namespace Fourfold

open Word

variable {α : Type}

/-! ### Implied cells -/

section Implied

variable {both countA countB total : Int}

/-- The cells that marginal counts imply, which may be negative. -/
def implied (both countA countB total : Int) : Fourfold :=
  ⟨both, countA - both, countB - both, total - countA - countB + both⟩

/-- The first negative number among marginal counts, or else among the cells that they imply.  A
last cell that words of 64 bits cannot hold is reported as the smallest count. -/
inductive FirstNegative (both countA countB total : Int) : Error α → Prop where
  | given {index : Nat} {value : Int}
      (h : FirstAt (fun count => count < 0) [both, countA, countB, total] index value) :
      FirstNegative both countA countB total (.negativeCount index value)
  | cell {index : Nat} {value : Int} (hgiven : ∀ count ∈ [both, countA, countB, total], 0 ≤ count)
      (h : FirstAt (fun count => count < 0) (implied both countA countB total).counts index value)
      (hvalue : smallestCount ≤ value) :
      FirstNegative both countA countB total (.negativeCount index value)
  | beyond {value : Int} (hgiven : ∀ count ∈ [both, countA, countB, total], 0 ≤ count)
      (h : FirstAt (fun count => count < 0) (implied both countA countB total).counts 3 value)
      (hvalue : value < smallestCount) :
      FirstNegative both countA countB total (.negativeCount 3 smallestCount)

lemma implied_nonneg_iff : (implied both countA countB total).Nonneg ↔
    0 ≤ both ∧ both ≤ countA ∧ both ≤ countB ∧ countA + countB - both ≤ total := by
  constructor
  · rintro ⟨hboth, hA, hB, hneither⟩
    simp only [implied] at *
    omega
  · intro h
    constructor <;> simp only [implied] <;> omega

/-- The checks in their order. -/
lemma ofMarginals_eq : (ofMarginals both countA countB total : Except (Error α) Fourfold) =
    Check.counts [both, countA, countB, total] >>= fun _ =>
    Check.counts [both, countA - both, countB - both] >>= fun _ =>
    if total - countA - countB + both < smallestCount ∨
        largestCount < total - countA - countB + both then .error (.negativeCount 3 smallestCount)
    else Check.counts (implied both countA countB total).counts >>= fun _ =>
      .ok (implied both countA countB total) :=
  rfl

lemma ofMarginals_eq_ok_iff (hmax : total ≤ largestCount) {f : Fourfold} :
    (ofMarginals both countA countB total : Except (Error α) Fourfold) = .ok f ↔
      (implied both countA countB total).Nonneg ∧ implied both countA countB total = f := by
  constructor
  · intro h
    rw [ofMarginals_eq, check_bind_eq_ok_iff, check_bind_eq_ok_iff] at h
    obtain ⟨-, -, h⟩ := h
    split_ifs at h
    rw [check_bind_eq_ok_iff, Check.counts_eq_ok_iff, Except.ok.injEq] at h
    exact ⟨nonneg_of_counts h.1, h.2⟩
  · rintro ⟨h, rfl⟩
    have hA : both + (countA - both) = countA := by omega
    have hB : both + (countB - both) = countB := by omega
    have htotal : (implied both countA countB total).total = total := by
      simp only [implied, Fourfold.total]
      omega
    have hmargins := ofMarginals_margins (α := α) h (by rwa [htotal])
    rwa [htotal, implied, hA, hB] at hmargins

/-- The last cell is at most the total once the others are not negative. -/
lemma neither_le_of_nonneg (hmax : total ≤ largestCount)
    (h : ∀ count ∈ [both, countA - both, countB - both], 0 ≤ count) :
    total - countA - countB + both ≤ largestCount := by
  simp only [List.mem_cons, List.not_mem_nil, or_false, forall_eq_or_imp, forall_eq] at h
  omega

/-- The cells are looked at in two steps, the last one after the others. -/
lemma firstAt_cells_iff {index : Nat} {value : Int} :
    FirstAt (fun count => count < 0) (implied both countA countB total).counts index value ↔
      FirstAt (fun count => count < 0) [both, countA - both, countB - both] index value ∨
        (∀ count ∈ [both, countA - both, countB - both], 0 ≤ count) ∧ index = 3 ∧
          value = total - countA - countB + both ∧ value < 0 := by
  have hcounts : (implied both countA countB total).counts =
      [both, countA - both, countB - both] ++ [total - countA - countB + both] := rfl
  have hlast (index : Nat) : FirstAt (fun count => count < 0) [total - countA - countB + both] index
      value ↔ index = 0 ∧ value = total - countA - countB + both ∧ value < 0 := by
    constructor
    · rintro ⟨hget, hneg, -⟩
      obtain ⟨hindex, rfl⟩ := List.getElem?_eq_some_iff.1 hget
      obtain rfl := Nat.lt_one_iff.1 hindex
      exact ⟨rfl, rfl, hneg⟩
    · rintro ⟨rfl, rfl, hneg⟩
      exact ⟨rfl, hneg, fun k hk => absurd hk (Nat.not_lt_zero k)⟩
  rw [hcounts, firstAt_append_iff, hlast]
  simp only [Int.not_lt, List.length_cons, List.length_nil]
  refine or_congr_right (and_congr_right fun _ => ⟨?_, ?_⟩)
  · rintro ⟨hle, hindex, hvalue⟩
    exact ⟨by omega, hvalue⟩
  · rintro ⟨rfl, hvalue⟩
    exact ⟨Nat.le_refl 3, rfl, hvalue⟩

/-- Only the last cell can be beyond the range of a count, and only below it. -/
lemma ofMarginals_eq_error_iff (hboth : both ≤ largestCount) (hmax : total ≤ largestCount)
    {e : Error α} :
    (ofMarginals both countA countB total : Except (Error α) Fourfold) = .error e ↔
      FirstNegative both countA countB total e := by
  rw [ofMarginals_eq, check_bind_eq_error_iff, check_bind_eq_error_iff, Check.counts_eq_error_iff,
    Check.counts_eq_ok_iff, Check.counts_eq_error_iff, Check.counts_eq_ok_iff]
  constructor
  · rintro (⟨index, value, hfirst, rfl⟩ | ⟨hgiven, ⟨index, value, hfirst, rfl⟩ | ⟨hpartial, h⟩⟩)
    · exact .given hfirst
    · refine .cell hgiven (firstAt_cells_iff.2 (.inl hfirst)) ?_
      have hmem := List.mem_of_getElem? hfirst.getElem?
      simp only [List.mem_cons, List.not_mem_nil, or_false, forall_eq_or_imp, forall_eq] at *
      unfold smallestCount largestCount at *
      omega
    · have hle := neither_le_of_nonneg hmax hpartial
      split_ifs at h with hrange
      · obtain rfl := Except.error.inj h
        have hlt := hrange.resolve_right (Int.not_lt.2 hle)
        refine .beyond hgiven (firstAt_cells_iff.2 (.inr ⟨hpartial, rfl, rfl, ?_⟩)) hlt
        exact Int.lt_trans hlt (by decide)
      · have hcheck := check_bind_eq_error_iff.1 h
        simp only [reduceCtorEq, and_false, or_false, Check.counts_eq_error_iff] at hcheck
        obtain ⟨index, value, hfirst, rfl⟩ := hcheck
        refine .cell hgiven hfirst ?_
        rcases firstAt_cells_iff.1 hfirst with hfirst | ⟨-, -, rfl, -⟩
        · have hnonneg := hpartial _ (List.mem_of_getElem? hfirst.getElem?)
          exact absurd hfirst.holds (Int.not_lt.2 hnonneg)
        · exact Int.not_lt.1 fun hlt => hrange (.inl hlt)
  · intro h
    cases h with
    | given hfirst => exact .inl ⟨_, _, hfirst, rfl⟩
    | cell hgiven hfirst hvalue =>
      refine .inr ⟨hgiven, ?_⟩
      rcases firstAt_cells_iff.1 hfirst with hpartial | ⟨hpartial, -, rfl, -⟩
      · exact .inl ⟨_, _, hpartial, rfl⟩
      · have hle := neither_le_of_nonneg hmax hpartial
        refine .inr ⟨hpartial, ?_⟩
        rw [if_neg (not_or.2 ⟨Int.not_lt.2 hvalue, Int.not_lt.2 hle⟩)]
        exact bind_eq_error (Check.counts_eq_error_iff.2 ⟨_, _, hfirst, rfl⟩) _
    | beyond hgiven hfirst hvalue =>
      rcases firstAt_cells_iff.1 hfirst with hpartial | ⟨hpartial, -, rfl, -⟩
      · exact nomatch hpartial.getElem?
      · exact .inr ⟨hgiven, .inr ⟨hpartial, if_pos (.inl hvalue)⟩⟩

end Implied

/-! ### The table in words -/

/-- The check of counts as a part of a computation in words. -/
def checkCounts (counts : List Int) : ExceptT (Error α) Option Unit :=
  .mk (some (Check.counts counts))

/-- The table of marginal counts, computed in words.  There is no result at all if a step leaves the
range of its words. -/
def ofWords (both countA countB total : BitVec 64) : ExceptT (Error α) Option Fourfold := do
  checkCounts [both.toInt, countA.toInt, countB.toInt, total.toInt]
  let onlyA ← sub? countA both
  let onlyB ← sub? countB both
  checkCounts [both.toInt, onlyA.toInt, onlyB.toInt]
  let withoutA ← sub? (wide total) (wide countA)
  let withoutEither ← sub? withoutA (wide countB)
  let last ← add? withoutEither (wide both)
  match narrow? last with
  | none => throw (.negativeCount 3 smallestCount)
  | some neither =>
    checkCounts [both.toInt, onlyA.toInt, onlyB.toInt, neither.toInt]
    return ⟨both.toInt, onlyA.toInt, onlyB.toInt, neither.toInt⟩

section Words

variable {β γ : Type}

/-- A step within the range of its words is followed by the next one. -/
lemma step_bind {x : Option β} {b : β} (h : x = some b) (f : β → ExceptT (Error α) Option γ) :
    liftM x >>= f = f b := by
  rw [h]
  rfl

/-- A check ends a computation in words as it ends one in unbounded numbers, and what follows it is
reached only if it passes. -/
lemma run_checkCounts_bind {counts : List Int} {f : Unit → ExceptT (Error α) Option γ}
    {g : Unit → Except (Error α) γ}
    (h : (Check.counts counts : Except (Error α) Unit) = .ok () → (f ()).run = some (g ())) :
    (checkCounts counts >>= f).run = some (Check.counts counts >>= g) := by
  rw [checkCounts]
  cases hcheck : (Check.counts counts : Except (Error α) Unit) with
  | error e => rfl
  | ok => exact h hcheck

/-- The differences of counts that are not negative are words. -/
lemma exists_sub? {x y : BitVec 64} (hx : 0 ≤ x.toInt) (hy : 0 ≤ y.toInt) :
    ∃ z, sub? x y = some z ∧ z.toInt = x.toInt - y.toInt := by
  refine sub?_eq_some (fits_count_iff.2 ?_)
  have hx' := fits_count_iff.1 ⟨x, rfl⟩
  have hy' := fits_count_iff.1 ⟨y, rfl⟩
  unfold smallestCount largestCount at *
  omega

/-- The last cell is a word of 128 bits, whatever the counts are. -/
lemma exists_last (both countA countB total : BitVec 64) :
    ∃ withoutA withoutEither last, sub? (wide total) (wide countA) = some withoutA ∧
      sub? withoutA (wide countB) = some withoutEither ∧
      add? withoutEither (wide both) = some last ∧
      last.toInt = total.toInt - countA.toInt - countB.toInt + both.toInt := by
  have hboth := fits_count_iff.1 ⟨both, rfl⟩
  have hA := fits_count_iff.1 ⟨countA, rfl⟩
  have hB := fits_count_iff.1 ⟨countB, rfl⟩
  have htotal := fits_count_iff.1 ⟨total, rfl⟩
  unfold smallestCount largestCount at hboth hA hB htotal
  obtain ⟨withoutA, h₁, h₁'⟩ : ∃ z, sub? (wide total) (wide countA) = some z ∧ _ :=
    sub?_eq_some (fits_wide (by simp only [smallestCount, largestCount, toInt_wide]; omega))
  obtain ⟨withoutEither, h₂, h₂'⟩ : ∃ z, sub? withoutA (wide countB) = some z ∧ _ :=
    sub?_eq_some (fits_wide (by simp only [smallestCount, largestCount, h₁', toInt_wide]; omega))
  obtain ⟨last, h₃, h₃'⟩ : ∃ z, add? withoutEither (wide both) = some z ∧ _ :=
    add?_eq_some (fits_wide
      (by simp only [smallestCount, largestCount, h₁', h₂', toInt_wide]; omega))
  refine ⟨withoutA, withoutEither, last, h₁, h₂, h₃, ?_⟩
  rw [h₃', h₂', h₁', toInt_wide, toInt_wide, toInt_wide, toInt_wide]

/-- No step leaves the range of its words, and the result is that of unbounded numbers. -/
lemma run_ofWords (both countA countB total : BitVec 64) :
    (ofWords both countA countB total : ExceptT (Error α) Option Fourfold).run =
      some (ofMarginals both.toInt countA.toInt countB.toInt total.toInt) := by
  rw [ofMarginals_eq, ofWords]
  refine run_checkCounts_bind fun hgiven => ?_
  rw [Check.counts_eq_ok_iff] at hgiven
  simp only [List.mem_cons, List.not_mem_nil, or_false, forall_eq_or_imp, forall_eq] at hgiven
  obtain ⟨hboth, hcountA, hcountB, -⟩ := hgiven
  obtain ⟨onlyA, hA, hA'⟩ := exists_sub? hcountA hboth
  obtain ⟨onlyB, hB, hB'⟩ := exists_sub? hcountB hboth
  obtain ⟨withoutA, withoutEither, last, h₁, h₂, h₃, hlast⟩ := exists_last both countA countB total
  rw [step_bind hA, step_bind hB, implied, ← hA', ← hB', ← hlast]
  refine run_checkCounts_bind fun _ => ?_
  rw [step_bind h₁, step_bind h₂, step_bind h₃]
  by_cases hrange : smallestCount ≤ last.toInt ∧ last.toInt ≤ largestCount
  · obtain ⟨neither, hneither, hneither'⟩ := narrow?_eq_some hrange
    rw [hneither, if_neg (by omega), ← hneither']
    exact run_checkCounts_bind fun _ => rfl
  · rw [narrow?, if_neg hrange, if_pos (by omega)]
    rfl

end Words

/-- **Tables from marginal counts.**  For counts of 64 bits there is a table exactly if its cells
are not negative, and its cells are those that the counts imply.  Otherwise the first negative one
of the counts is reported, or else the first negative cell, in the place of which the smallest count
stands if it is beyond 64 bits.  Computed in words the result is the same: no step leaves the range
of its words, and a last cell that is reached and does not fit into 64 bits is never too large.
Every table that fits into 64 bits comes from its own marginal counts. -/
theorem ofMarginals_in_words (both countA countB total : BitVec 64) :
    ∃ found : Except (Error α) Fourfold,
      ofMarginals both.toInt countA.toInt countB.toInt total.toInt = found ∧
      (ofWords both countA countB total).run = some found ∧
      ((∃ f, found = .ok f) ↔ 0 ≤ both.toInt ∧ both.toInt ≤ countA.toInt ∧
        both.toInt ≤ countB.toInt ∧ countA.toInt + countB.toInt - both.toInt ≤ total.toInt) ∧
      (∀ f, found = .ok f → f.both = both.toInt ∧ f.both + f.onlyA = countA.toInt ∧
        f.both + f.onlyB = countB.toInt ∧
        f.both + f.onlyA + f.onlyB + f.neither = total.toInt) ∧
      (∀ e, found = .error e ↔
        FirstNegative both.toInt countA.toInt countB.toInt total.toInt e) ∧
      ((Check.counts [both.toInt, countA.toInt - both.toInt, countB.toInt - both.toInt] :
          Except (Error α) Unit) = .ok () →
        total.toInt - countA.toInt - countB.toInt + both.toInt ≤ largestCount) ∧
      ∀ f : Fourfold, f.Nonneg → f.both + f.onlyA + f.onlyB + f.neither ≤ largestCount →
        (ofMarginals f.both (f.both + f.onlyA) (f.both + f.onlyB)
          (f.both + f.onlyA + f.onlyB + f.neither) : Except (Error α) Fourfold) = .ok f := by
  have hboth := (fits_count_iff.1 ⟨both, rfl⟩).2
  have hmax := (fits_count_iff.1 ⟨total, rfl⟩).2
  refine ⟨_, rfl, run_ofWords both countA countB total, ?_, fun f hf => ?_,
    fun e => ofMarginals_eq_error_iff hboth hmax,
    fun hpartial => neither_le_of_nonneg hmax (Check.counts_eq_ok_iff.1 hpartial),
    fun f hf hfits => ofMarginals_margins hf hfits⟩
  · rw [← implied_nonneg_iff]
    constructor
    · rintro ⟨f, hf⟩
      exact ((ofMarginals_eq_ok_iff hmax).1 hf).1
    · intro h
      exact ⟨_, (ofMarginals_eq_ok_iff hmax).2 ⟨h, rfl⟩⟩
  · obtain ⟨-, rfl⟩ := (ofMarginals_eq_ok_iff hmax).1 hf
    simp only [implied, true_and]
    omega

/-- The largest counts, and counts whose last cell is beyond 64 bits. -/
theorem ofMarginals_in_words_largest :
    (ofMarginals 1 9223372036854775807 1 9223372036854775807 : Except (Error Float) Fourfold) =
        .ok ⟨1, 9223372036854775806, 0, 0⟩ ∧
      (ofMarginals 0 9223372036854775807 9223372036854775807 0 : Except (Error Float) Fourfold) =
        .error (.negativeCount 3 (-9223372036854775808)) := by
  obtain ⟨_, rfl, -, -, -, -, -, hmargins⟩ := ofMarginals_in_words (α := Float) 0 0 0 0
  obtain ⟨_, hfound, -, -, -, herror, -⟩ :=
    ofMarginals_in_words (α := Float) 0 9223372036854775807 9223372036854775807 0
  refine ⟨hmargins ⟨1, 9223372036854775806, 0, 0⟩
    ⟨by decide, by decide, by decide, by decide⟩ (by decide), ?_⟩
  have hlast : FirstNegative 0 9223372036854775807 9223372036854775807 0
      (.negativeCount 3 smallestCount : Error Float) :=
    .beyond (by decide) (firstAt_cells_iff.2 (.inr ⟨by decide, rfl, rfl, by decide⟩)) (by decide)
  exact hfound.trans ((herror _).2 hlast)

end Fourfold

end LikelihoodRatio
