/-
# Signs of results

A sum of numbers that are not negative is not negative, and vanishes only if all of them do, however
many there are and whatever is lost by rounding (`foldl_add_nonneg`).  Infinite sums are no
exception.
-/
import LikelihoodRatio.Proofs.Binary64.Bounds

namespace LikelihoodRatio.Binary64

open Float.Model Float.Model.UnpackedFloat

variable {x y s : Float}

/-- A number that is not negative is infinite, or is finite and stands for one that is not. -/
lemma zero_le_iff : 0.0 ≤ x ↔
    parts x = .infinity .positive ∨ x.isFinite = true ∧ 0 ≤ value x := by
  by_cases hx : x.isFinite = true
  · rw [le_iff_value rfl hx, value_zero]
    refine ⟨fun h => .inr ⟨hx, h⟩, ?_⟩
    rintro (hinf | ⟨-, h⟩)
    · exact absurd hinf (parts_ne_infinity hx)
    · exact h
  · rw [le_iff, parts_zero, ← storable_parts_iff]
    rw [← storable_parts_iff] at hx
    cases hparts : parts x with
    | notANumber => simp [Storable]
    | infinity sign => cases sign <;> simp [Storable, place, Sign.apply, Prod.Lex.le_iff]
    | zero sign => exact absurd (hparts ▸ trivial) hx
    | finite sign m e hm => exact absurd (hparts ▸ stored_of_unpack hparts) hx

/-- Adding to an infinite number leaves it infinite. -/
lemma parts_add_of_infinite (hx : 0.0 ≤ x) (hy : 0.0 ≤ y)
    (h : parts x = .infinity .positive ∨ parts y = .infinity .positive) :
    parts (x + y) = .infinity .positive := by
  change (Float.Model.pack (UnpackedFloat.add .binary64 (parts x) (parts y))).unpack = _
  rcases zero_le_iff.1 hx with hinf | ⟨hfinite, -⟩
  · rcases zero_le_iff.1 hy with hinf' | ⟨hfinite, -⟩
    · rw [hinf, hinf']
      exact unpack_infinity .positive
    · have hstorable := storable_parts_iff.2 hfinite
      rw [hinf]
      generalize parts y = b at hstorable ⊢
      cases b, hstorable using Storable.cases <;> exact unpack_infinity .positive
  · have hstorable := storable_parts_iff.2 hfinite
    rw [h.resolve_left (parts_ne_infinity hfinite)]
    generalize parts x = a at hstorable ⊢
    cases a, hstorable using Storable.cases <;> exact unpack_infinity .positive

/-- A sum of two numbers that are not negative. -/
lemma add_nonneg (hx : 0.0 ≤ x) (hy : 0.0 ≤ y) :
    0.0 ≤ x + y ∧ (0.0 < x + y ↔ 0.0 < x ∨ 0.0 < y) := by
  by_cases hinf : parts x = .infinity .positive ∨ parts y = .infinity .positive
  · have hsum := parts_add_of_infinite hx hy hinf
    refine ⟨zero_le_iff.2 (.inl hsum), iff_of_true (zero_lt_iff.2 (.inl hsum)) ?_⟩
    exact hinf.imp (fun h => zero_lt_iff.2 (.inl h)) fun h => zero_lt_iff.2 (.inl h)
  · obtain ⟨hinfx, hinfy⟩ := not_or.1 hinf
    obtain ⟨hfx, hx0⟩ := (zero_le_iff.1 hx).resolve_left hinfx
    obtain ⟨hfy, hy0⟩ := (zero_le_iff.1 hy).resolve_left hinfy
    have hround := roundsTo_add hfx hfy
    rw [pos_iff_value hfx, pos_iff_value hfy]
    by_cases hzero : value x = 0 ∧ value y = 0
    · rw [hzero.1, hzero.2, add_zero] at hround
      obtain ⟨hfinite, hnear⟩ := hround.isFinite (by rw [abs_zero]; exact safe_pos.le)
      have hvalue := hnear.eq_of_representable representable_zero
      refine ⟨zero_le_iff.2 (.inr ⟨hfinite, hvalue.ge⟩), ?_⟩
      rw [pos_iff_value hfinite, hvalue, hzero.1, hzero.2]
      simp
    · have hor : 0 < value x ∨ 0 < value y := by
        by_contra hnot
        rw [not_or, not_lt, not_lt] at hnot
        exact hzero ⟨le_antisymm hnot.1 hx0, le_antisymm hnot.2 hy0⟩
      have hpos : 0.0 < x + y := by
        rcases hor with hpos | hpos
        · exact hround.pos_of_le (representable_value hfx) hpos (by linarith)
        · exact hround.pos_of_le (representable_value hfy) hpos (by linarith)
      exact ⟨le_of_lt hpos, iff_of_true hpos hor⟩

/-- A sum of numbers that are not negative. -/
theorem foldl_add_nonneg {xs : List Float} (hs : 0.0 ≤ s) (hxs : ∀ x ∈ xs, 0.0 ≤ x) :
    0.0 ≤ xs.foldl (· + ·) s ∧ (0.0 < xs.foldl (· + ·) s ↔ 0.0 < s ∨ ∃ x ∈ xs, 0.0 < x) := by
  induction xs generalizing s with
  | nil => simpa using hs
  | cons x xs ih =>
    rw [List.forall_mem_cons] at hxs
    obtain ⟨hsum, hpos⟩ := add_nonneg hs hxs.1
    obtain ⟨hfold, hpos'⟩ := ih hsum hxs.2
    rw [List.foldl_cons, List.exists_mem_cons_iff, ← or_assoc, ← hpos]
    exact ⟨hfold, hpos'⟩

/-- Of the numbers that are not negative, all but the zeros are positive. -/
lemma beq_zero_eq_false_iff (hx : 0.0 ≤ x) : (x == 0.0) = false ↔ 0.0 < x := by
  rw [← Bool.not_eq_true]
  rcases zero_le_iff.1 hx with hinf | ⟨hfinite, h⟩
  · refine iff_of_true ?_ (zero_lt_iff.2 (.inl hinf))
    rw [beq_zero_iff, hinf]
    rintro ⟨sign, hzero⟩
    cases hzero
  · rw [beq_zero_iff_value hfinite, pos_iff_value hfinite]
    exact ⟨fun hne => h.lt_of_ne' hne, fun hpos => hpos.ne'⟩

/-- A factor of at least one keeps a positive number from vanishing. -/
lemma mul_pos_of_one_le (hx : x.isFinite = true) (hone : 1 ≤ value x) (hy : 0.0 < y) :
    0.0 < x * y := by
  rcases zero_le_iff.1 (le_of_lt hy) with hinf | ⟨hfinite, -⟩
  · refine zero_lt_iff.2 (.inl ?_)
    obtain ⟨m, e, hm, hparts⟩ :=
      exists_parts_of_pos hx ((pos_iff_value hx).2 (one_pos.trans_le hone))
    change (Float.Model.pack (UnpackedFloat.mul .binary64 (parts x) (parts y))).unpack = _
    rw [hinf, hparts]
    exact unpack_infinity .positive
  · have hy' := (pos_iff_value hfinite).1 hy
    exact (roundsTo_mul hx hfinite).pos_of_le (representable_value hfinite) hy'
      (le_mul_of_one_le_left hy'.le hone)

/-- The negative of a positive number. -/
lemma neg_lt_zero (hx : 0.0 < x) : -x < 0.0 := by
  rw [lt_iff, parts_neg, parts_zero]
  rcases zero_lt_iff.1 hx with hinf | ⟨m, e, hm, hparts⟩
  · have hneg : (UnpackedFloat.infinity .positive).neg = .infinity .negative := rfl
    rw [hinf, hneg]
    simp [place, Sign.apply, Prod.Lex.lt_iff]
  · have hneg : (UnpackedFloat.finite .positive m e hm).neg = .finite .negative m e hm := rfl
    rw [hparts, hneg]
    simp [place, Sign.apply, Prod.Lex.lt_iff]

end LikelihoodRatio.Binary64
