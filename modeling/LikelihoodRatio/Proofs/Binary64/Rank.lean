/-
# The total order of binary64 numbers

The word of a number without its sign is a whole number with the exponent for its first digit and
the mantissa for its second one, and so it grows with the number (`code_lt_iff`).  The rank of a
number is that whole number, counted downwards for a negative one.  Ranks are in the order of the
numbers, tell negative zero from zero, and put the undefined number last (`rank_lt_iff`).  No two
numbers have the same rank (`rank_inj`).
-/
import LikelihoodRatio.Proofs.Binary64.Fields
import LikelihoodRatio.Proofs.Binary64.Zeros

namespace LikelihoodRatio.Binary64

open Float.Model Float.Model.UnpackedFloat

variable {x y : Float}

/-- A number comes before another one in the total order: it is less, or they are the two zeros in
their order, or the other one is undefined. -/
def TotalLT (x y : Float) : Prop :=
  x < y ∨ (x = -0.0 ∧ y = 0.0) ∨ (x.isNaN = false ∧ y.isNaN = true)

/-! ### Words without their signs -/

/-- The word of a finite number without its sign. -/
def code (m : ℕ) (e : ℤ) : ℤ := (e + 1074) * 2 ^ 52 + m

lemma code_lt_iff {m m' : ℕ} {e e' : ℤ} (h : Stored m e) (h' : Stored m' e') :
    code m e < code m' e' ↔ e < e' ∨ e = e' ∧ m < m' := by
  obtain ⟨hlt, hmin, hfull⟩ := h
  obtain ⟨hlt', hmin', hfull'⟩ := h'
  rw [code, code]
  omega

lemma code_bounds {m : ℕ} {e : ℤ} (h : Stored m e) (he : e ≤ 971) :
    0 ≤ code m e ∧ code m e < 2047 * 2 ^ 52 := by
  obtain ⟨hlt, hmin, hfull⟩ := h
  rw [code]
  omega

lemma code_pos {m : ℕ} {e : ℤ} (h : Stored m e) (hm : 0 < m) : 0 < code m e := by
  have hmin := h.le_exponent
  rw [code]
  omega

/-! ### Ranks -/

/-- The rank of a number, as it depends on the parts. -/
def rankOf : UnpackedFloat → ℤ
  | .notANumber => 2047 * 2 ^ 52 + 2 ^ 51
  | .infinity .positive => 2047 * 2 ^ 52
  | .infinity .negative => -1 - 2047 * 2 ^ 52
  | .zero .positive => 0
  | .zero .negative => -1
  | .finite .positive m e _ => code m e
  | .finite .negative m e _ => -1 - code m e

/-- The exponent and the mantissa of a word make up the word without its sign. -/
lemma rank_eq_code (x : Float) :
    Binary.rank x =
      if Binary.isNegative x then -1 - code (Binary.mantissa x) (Binary.exponent x)
      else code (Binary.mantissa x) (Binary.exponent x) := by
  have hlt : x.toBits.toNat < 2 ^ 64 := x.toBits.toNat_lt
  have hword : code (Binary.mantissa x) (Binary.exponent x) = (x.toBits.toNat % 2 ^ 63 : ℕ) := by
    rw [code, Binary.mantissa, Binary.exponent]
    split_ifs with h <;> rw [Binary.exponentBits, Nat.pow_eq, Nat.pow_eq] at h <;>
      simp only [Binary.exponentBits, Binary.mantissaBits, Nat.pow_eq] <;> omega
  rw [hword, Binary.rank, Nat.pow_eq]
  by_cases hneg : Binary.isNegative x = true
  · rw [if_pos hneg, if_pos hneg]
  · have hsmall : x.toBits.toNat < 2 ^ 63 := not_le.1 fun h => hneg (decide_eq_true h)
    rw [if_neg hneg, if_neg hneg, Nat.mod_eq_of_lt hsmall]

lemma rank_eq (x : Float) : Binary.rank x = rankOf (parts x) := by
  cases h : parts x with
  | notANumber =>
    have hx : x = 0.0 / 0.0 := eq_of_parts_eq h
    rw [hx]
    decide +kernel
  | infinity sign =>
    cases sign with
    | positive =>
      have hx : x = 1.0 / 0.0 := eq_of_parts_eq h
      rw [hx]
      decide +kernel
    | negative =>
      have hx : x = -1.0 / 0.0 := eq_of_parts_eq h
      rw [hx]
      decide +kernel
  | zero sign =>
    cases sign with
    | positive =>
      have hx : x = 0.0 := eq_of_parts_eq h
      rw [hx]
      decide +kernel
    | negative =>
      rw [eq_negZero_iff.2 h]
      decide +kernel
  | finite sign m e hm =>
    have hfinite : x.isFinite = true := storable_parts_iff.1 (h ▸ stored_of_unpack h)
    rw [parts_eq hfinite, signOf] at h
    split_ifs at h with hpos hneg
    · obtain ⟨rfl, rfl, rfl⟩ := finite.inj h
      rw [rank_eq_code, if_pos hneg, rankOf]
    · obtain ⟨rfl, rfl, rfl⟩ := finite.inj h
      rw [rank_eq_code, if_neg hneg, rankOf]

/-! ### The order of ranks -/

/-- A number that is neither infinite nor undefined is ranked between the infinite ones. -/
lemma rankOf_bounds {a : UnpackedFloat} (ha : Storable a) :
    rankOf (.infinity .negative) < rankOf a ∧ rankOf a < rankOf (.infinity .positive) := by
  cases a, ha using Storable.cases with
  | zero sign => cases sign <;> decide
  | finite sign m e hm ha =>
    obtain ⟨hlow, hhigh⟩ := code_bounds ha.1 ha.2
    cases sign <;> simp only [rankOf] <;> omega

/-- Ranks are compared as places are, but that they tell the two zeros apart. -/
lemma rankOf_lt_iff {a b : UnpackedFloat} (ha : Storable a) (hb : Storable b) :
    rankOf a < rankOf b ↔ place a < place b ∨ a = .zero .negative ∧ b = .zero .positive := by
  cases a, ha using Storable.cases with
  | zero s =>
    cases b, hb using Storable.cases with
    | zero s' => cases s <;> cases s' <;> simp [rankOf, place]
    | finite s' m' e' hm' hb =>
      have hpos := code_pos hb.1 hm'
      cases s <;> cases s' <;>
        simp [rankOf, place, Sign.apply, Prod.Lex.lt_iff] <;> omega
  | finite s m e hm ha =>
    have hpos := code_pos ha.1 hm
    cases b, hb using Storable.cases with
    | zero s' =>
      cases s <;> cases s' <;>
        simp [rankOf, place, Sign.apply, Prod.Lex.lt_iff] <;> omega
    | finite s' m' e' hm' hb =>
      have hpos' := code_pos hb.1 hm'
      have hlt := code_lt_iff ha.1 hb.1
      have hgt := code_lt_iff hb.1 ha.1
      cases s <;> cases s' <;>
        simp [rankOf, place, Sign.apply, Prod.Lex.lt_iff] <;> omega

/-- The undefined number has the last rank. -/
lemma rankOf_lt_notANumber {a : UnpackedFloat} (ha : Storable a) :
    rankOf a < rankOf .notANumber :=
  (rankOf_bounds ha).2.trans (by decide)

lemma rankOf_parts_lt_iff (x y : Float) :
    rankOf (parts x) < rankOf (parts y) ↔
      (parts x ≠ .notANumber ∧ parts y ≠ .notANumber ∧ place (parts x) < place (parts y)) ∨
      (parts x = .zero .negative ∧ parts y = .zero .positive) ∨
      parts x ≠ .notANumber ∧ parts y = .notANumber := by
  rcases parts_cases x with hx | ⟨s, hx⟩ | hx
  · rcases parts_cases y with hy | ⟨s', hy⟩ | hy
    · simp [hx, hy]
    · cases s' <;> simp [hx, hy, rankOf]
    · simpa [hx, hy.ne_notANumber] using (rankOf_lt_notANumber hy).le
  · rcases parts_cases y with hy | ⟨s', hy⟩ | hy
    · cases s <;> simp [hx, hy, rankOf]
    · cases s <;> cases s' <;> simp [hx, hy, rankOf, place, Sign.apply, Prod.Lex.lt_iff]
    · obtain ⟨hlow, hhigh⟩ := rankOf_bounds hy
      obtain ⟨hbelow, habove⟩ := place_lt_infinity hy
      cases s with
      | negative => simp [hx, hy.ne_notANumber, hlow, hbelow]
      | positive => simp [hx, hy.ne_notANumber, hhigh.not_gt, habove.not_gt]
  · rcases parts_cases y with hy | ⟨s', hy⟩ | hy
    · simp [hy, hx.ne_notANumber, rankOf_lt_notANumber hx]
    · obtain ⟨hlow, hhigh⟩ := rankOf_bounds hx
      obtain ⟨hbelow, habove⟩ := place_lt_infinity hx
      cases s' with
      | negative => simp [hy, hx.ne_notANumber, hlow.not_gt, hbelow.not_gt]
      | positive => simp [hy, hx.ne_notANumber, hhigh, habove]
    · simp [rankOf_lt_iff hx hy, hx.ne_notANumber, hy.ne_notANumber]

/-- **Ranks are in the total order of numbers.** -/
theorem rank_lt_iff : Binary.rank x < Binary.rank y ↔ TotalLT x y := by
  have hposZero : y = 0.0 ↔ parts y = .zero .positive :=
    ⟨fun h => h ▸ parts_zero, fun h => eq_of_parts_eq (h.trans parts_zero.symm)⟩
  rw [rank_eq, rank_eq, rankOf_parts_lt_iff, TotalLT, lt_iff, eq_negZero_iff, hposZero, isNaN_iff,
    ← Bool.not_eq_true, isNaN_iff]

/-- No two numbers have the same rank. -/
theorem rank_inj : Binary.rank x = Binary.rank y ↔ x = y := by
  refine ⟨fun h => Float.toBits_inj.1 (UInt64.toNat_inj.1 ?_), fun h => congrArg Binary.rank h⟩
  have hx : x.toBits.toNat < 2 ^ 64 := x.toBits.toNat_lt
  have hy : y.toBits.toNat < 2 ^ 64 := y.toBits.toNat_lt
  simp only [Binary.rank, Binary.isNegative, decide_eq_true_iff, Nat.pow_eq] at h
  split_ifs at h <;> omega

end LikelihoodRatio.Binary64
