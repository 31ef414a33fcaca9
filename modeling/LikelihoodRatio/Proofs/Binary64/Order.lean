/-
# The order of binary64 numbers

Numbers are compared by sign, exponent and mantissa, in this order (`compare_eq`), so that the
numbers apart from the undefined one are linearly ordered.
-/
import LikelihoodRatio.Proofs.Binary64.Packing

namespace LikelihoodRatio.Binary64

open Float.Model Float.Model.UnpackedFloat

/-- The sign, the exponent and the mantissa of a number. -/
abbrev parts (x : Float) : UnpackedFloat := x.toModel.unpack

/-- Where a number stands among all numbers.  The undefined number has no place. -/
def place : UnpackedFloat → ℤ ×ₗ ℤ ×ₗ ℤ
  | .notANumber => toLex (0, toLex (0, 0))
  | .infinity sign => toLex (sign.apply 2, toLex (0, 0))
  | .zero _ => toLex (0, toLex (0, 0))
  | .finite sign m e _ => toLex (sign.apply 1, toLex (sign.apply e, sign.apply m))

lemma compare_sameSign (k e₁ e₂ m₁ m₂ : Int) :
    compare (toLex (k, toLex (e₁, m₁))) (toLex (k, toLex (e₂, m₂))) =
      (compare e₁ e₂).then (compare m₁ m₂) := by
  simp [Prod.Lex.compare_def, compareLex, compareOn]

lemma compare_natCast (m₁ m₂ : Nat) : compare (m₁ : Int) (m₂ : Int) = compare m₁ m₂ := by
  simp only [Int.compare_eq_ite_lt, Nat.compare_eq_ite_lt, Int.ofNat_lt]

lemma compare_neg_neg (x y : Int) : compare (-x) (-y) = (compare x y).swap := by
  rw [← Std.OrientedCmp.eq_swap]
  simp only [Int.compare_eq_ite_lt, neg_lt_neg_iff]

/-- Numbers are compared by their places. -/
lemma compare_eq {a b : UnpackedFloat} (ha : a ≠ .notANumber) (hb : b ≠ .notANumber) :
    a.compare b = some (compare (place a) (place b)) := by
  cases a with
  | notANumber => exact absurd rfl ha
  | infinity s =>
    cases b with
    | notANumber => exact absurd rfl hb
    | infinity s' => cases s <;> cases s' <;> rfl
    | zero s' => cases s <;> rfl
    | finite s' m' e' h' => cases s <;> cases s' <;> rfl
  | zero s =>
    cases b with
    | notANumber => exact absurd rfl hb
    | infinity s' => cases s' <;> rfl
    | zero s' => rfl
    | finite s' m' e' h' => cases s' <;> rfl
  | finite s m e h =>
    cases b with
    | notANumber => exact absurd rfl hb
    | infinity s' => cases s <;> cases s' <;> rfl
    | zero s' => cases s <;> rfl
    | finite s' m' e' h' =>
      cases s <;> cases s'
      · change some ((compare e e').then (compare m m')).swap = _
        rw [place, place, compare_sameSign]
        simp only [Sign.apply, compare_neg_neg, compare_natCast, Ordering.swap_then]
      · rfl
      · rfl
      · change some ((compare e e').then (compare m m')) = _
        rw [place, place, compare_sameSign]
        simp only [Sign.apply, compare_natCast]

/-! ### Comparisons -/

variable {x y z : Float}

lemma defined_of_compare {a b : UnpackedFloat} {o : Ordering} (h : a.compare b = some o) :
    a ≠ .notANumber ∧ b ≠ .notANumber := by
  constructor
  · rintro rfl
    simp [UnpackedFloat.compare] at h
  · rintro rfl
    cases a <;> simp [UnpackedFloat.compare] at h

lemma lt_iff : x < y ↔
    parts x ≠ .notANumber ∧ parts y ≠ .notANumber ∧ place (parts x) < place (parts y) := by
  have hcompare : x < y ↔ (parts x).compare (parts y) = some .lt :=
    decide_eq_true_iff.trans beq_iff_eq
  rw [hcompare]
  constructor
  · intro h
    obtain ⟨hx, hy⟩ := defined_of_compare h
    rw [compare_eq hx hy, Option.some.injEq, compare_lt_iff_lt] at h
    exact ⟨hx, hy, h⟩
  · rintro ⟨hx, hy, h⟩
    rw [compare_eq hx hy, compare_lt_iff_lt.2 h]

lemma le_iff : x ≤ y ↔
    parts x ≠ .notANumber ∧ parts y ≠ .notANumber ∧ place (parts x) ≤ place (parts y) := by
  have hcompare : x ≤ y ↔ ∃ o, (parts x).compare (parts y) = some o ∧ o.isLE = true :=
    decide_eq_true_iff.trans (Option.any_eq_true _ _)
  rw [hcompare]
  constructor
  · rintro ⟨o, h, hle⟩
    obtain ⟨hx, hy⟩ := defined_of_compare h
    rw [compare_eq hx hy, Option.some.injEq] at h
    subst h
    exact ⟨hx, hy, compare_le_iff_le.1 (Ordering.isLE_iff_ne_gt.1 hle)⟩
  · rintro ⟨hx, hy, h⟩
    exact ⟨_, compare_eq hx hy, Ordering.isLE_iff_ne_gt.2 (compare_le_iff_le.2 h)⟩

lemma lt_irrefl (x : Float) : ¬x < x := fun h => (lt_iff.1 h).2.2.false

lemma le_of_lt (h : x < y) : x ≤ y := by
  obtain ⟨hx, hy, h⟩ := lt_iff.1 h
  exact le_iff.2 ⟨hx, hy, h.le⟩

theorem lt_of_lt_of_le (hxy : x < y) (hyz : y ≤ z) : x < z := by
  obtain ⟨hx, -, hxy⟩ := lt_iff.1 hxy
  obtain ⟨-, hz, hyz⟩ := le_iff.1 hyz
  exact lt_iff.2 ⟨hx, hz, hxy.trans_le hyz⟩

theorem lt_of_le_of_lt (hxy : x ≤ y) (hyz : y < z) : x < z := by
  obtain ⟨hx, -, hxy⟩ := le_iff.1 hxy
  obtain ⟨-, hz, hyz⟩ := lt_iff.1 hyz
  exact lt_iff.2 ⟨hx, hz, hxy.trans_lt hyz⟩

/-! ### Signs -/

lemma parts_zero : parts 0.0 = .zero .positive := rfl

/-- A positive number is infinite or has a mantissa. -/
lemma zero_lt_iff : 0.0 < x ↔
    parts x = .infinity .positive ∨ ∃ m e hm, parts x = .finite .positive m e hm := by
  rw [lt_iff, parts_zero]
  cases hx : parts x with
  | notANumber => simp
  | infinity s => cases s <;> simp [place, Sign.apply, Prod.Lex.lt_iff]
  | zero s => simp [place]
  | finite s m e hm => cases s <;> simp [place, Sign.apply, Prod.Lex.lt_iff, hm]

/-- There are two zeros, and both are equal to zero. -/
lemma beq_zero_iff : (x == 0.0) = true ↔ ∃ sign, parts x = .zero sign := by
  change (parts x).beq (parts 0.0) = true ↔ _
  rw [beq_iff_ne_notANumber_and_eq, parts_zero]
  cases parts x with
  | zero s => cases s <;> simp
  | _ => simp

end LikelihoodRatio.Binary64
