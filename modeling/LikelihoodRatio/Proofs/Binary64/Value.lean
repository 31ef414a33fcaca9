/-
# What binary64 numbers stand for

A finite number stands for a rational one (`value`), and finite numbers are ordered as the rational
numbers that they stand for (`lt_iff_value`): of two numbers as they are stored, the one with the
larger exponent is the larger one, whatever the mantissas are.
-/
import LikelihoodRatio.Proofs.Binary64.Order

namespace LikelihoodRatio.Binary64

open Float.Model Float.Model.UnpackedFloat

/-- The rational number that the parts of a number stand for, and zero if they stand for none. -/
def rational : UnpackedFloat → ℚ
  | .finite sign m e _ => sign.apply m * 2 ^ e
  | _ => 0

/-- The parts that a finite number can have. -/
def Storable : UnpackedFloat → Prop
  | .zero _ => True
  | .finite _ m e _ => Stored m e ∧ e ≤ 971
  | _ => False

/-- The rational number that a finite number stands for. -/
def value (x : Float) : ℚ := rational (parts x)

variable {a b : UnpackedFloat} {x y : Float} {m m' : ℕ} {e e' : ℤ}

/-- What a finite number can hold is zero, or has a mantissa and an exponent. -/
@[elab_as_elim]
lemma Storable.cases {motive : (a : UnpackedFloat) → Storable a → Prop}
    (zero : ∀ sign, motive (.zero sign) trivial)
    (finite : ∀ sign m e hm (h : Stored m e ∧ e ≤ 971), motive (.finite sign m e hm) h) :
    ∀ (a : UnpackedFloat) (ha : Storable a), motive a ha
  | .zero sign, _ => zero sign
  | .finite sign m e hm, h => finite sign m e hm h

lemma storable_parts_iff : Storable (parts x) ↔ x.isFinite = true := by
  change _ ↔ (parts x).isFinite = true
  cases h : parts x with
  | finite sign m e hm => simpa [Storable, UnpackedFloat.isFinite] using stored_of_unpack h
  | _ => simp [Storable, UnpackedFloat.isFinite]

lemma isNaN_iff : x.isNaN = true ↔ parts x = .notANumber := by
  change (parts x).isNaN = true ↔ _
  cases parts x <;> simp [UnpackedFloat.isNaN]

/-- A number is undefined, infinite or finite. -/
lemma parts_cases (x : Float) :
    parts x = .notANumber ∨ (∃ sign, parts x = .infinity sign) ∨ Storable (parts x) := by
  rw [storable_parts_iff]
  change _ ∨ _ ∨ (parts x).isFinite = true
  cases parts x <;> simp [UnpackedFloat.isFinite]

lemma parts_ne_infinity (hx : x.isFinite = true) {sign : Sign} : parts x ≠ .infinity sign := by
  intro hinf
  have hstorable := storable_parts_iff.2 hx
  rw [hinf] at hstorable
  exact hstorable

/-- What a finite number can hold is packed without loss. -/
lemma Storable.unpack_pack (ha : Storable a) : (Float.Model.pack a).unpack = a := by
  cases a, ha using Storable.cases with
  | zero sign => cases sign <;> rfl
  | finite sign m e hm ha => rw [Binary64.unpack_pack sign hm ha.1, if_neg ha.2.not_gt]

lemma Storable.ne_notANumber (ha : Storable a) : a ≠ .notANumber := by
  rintro rfl
  exact ha

/-! ### Signs -/

lemma neg_apply (sign : Sign) (n : ℤ) : (-sign).apply n = -sign.apply n := by
  cases sign with
  | negative => exact (neg_neg n).symm
  | positive => rfl

lemma rational_finite (sign : Sign) (hm : 0 < m) :
    rational (.finite sign m e hm) = sign.apply 1 * (m * 2 ^ e) := by
  cases sign <;> simp [rational, Sign.apply]

lemma rational_positive (hm : 0 < m) : rational (.finite .positive m e hm) = m * 2 ^ e := by
  simp [rational, Sign.apply]

lemma rational_negative (hm : 0 < m) : rational (.finite .negative m e hm) = -(m * 2 ^ e) := by
  simp [rational, Sign.apply]

lemma rational_neg (a : UnpackedFloat) : rational a.neg = -rational a := by
  cases a with
  | finite sign m e hm => simp only [UnpackedFloat.neg, rational, neg_apply, Int.cast_neg, neg_mul]
  | _ => exact neg_zero.symm

lemma Storable.neg (ha : Storable a) : Storable a.neg := by
  cases a <;> exact ha

/-! ### Order -/

lemma mul_two_zpow_pos (hm : 0 < m) (e : ℤ) : (0 : ℚ) < m * 2 ^ e := by positivity

/-- A mantissa of 53 bits or fewer does not reach a number with a larger exponent. -/
lemma mul_two_zpow_lt (h : Stored m e) (h' : Stored m' e') (hlt : e < e' ∨ e = e' ∧ m < m') :
    (m : ℚ) * 2 ^ e < m' * 2 ^ e' := by
  rcases hlt with hlt | ⟨rfl, hlt⟩
  · have hfull : 2 ^ 52 ≤ m' := by
      have hmin := h.le_exponent
      have hfull := h'.full
      omega
    have hm : (m : ℚ) < 2 ^ (53 : ℤ) := by exact_mod_cast h.lt
    have hm' : (2 : ℚ) ^ (52 : ℤ) ≤ m' := by exact_mod_cast hfull
    calc (m : ℚ) * 2 ^ e
        < 2 ^ (53 : ℤ) * 2 ^ e := by gcongr
      _ = 2 ^ (53 + e) := (zpow_add₀ two_ne_zero _ _).symm
      _ ≤ 2 ^ (52 + e') := zpow_le_zpow_right₀ one_le_two (by omega)
      _ = 2 ^ (52 : ℤ) * 2 ^ e' := zpow_add₀ two_ne_zero _ _
      _ ≤ m' * 2 ^ e' := by gcongr
  · gcongr

lemma rational_lt_of_place_lt (ha : Storable a) (hb : Storable b) (h : place a < place b) :
    rational a < rational b := by
  cases a, ha using Storable.cases with
  | zero s =>
    cases b, hb using Storable.cases with
    | zero s' => exact (h.ne rfl).elim
    | finite s' m' e' h' hb =>
      cases s' with
      | negative => simp [place, Sign.apply, Prod.Lex.lt_iff] at h
      | positive =>
        rw [rational_positive]
        exact mul_two_zpow_pos h' e'
  | finite s m e hm ha =>
    have hpos := mul_two_zpow_pos hm e
    cases b, hb using Storable.cases with
    | zero s' =>
      cases s with
      | negative =>
        rw [rational_negative]
        exact neg_lt_zero.2 hpos
      | positive => simp [place, Sign.apply, Prod.Lex.lt_iff] at h
    | finite s' m' e' h' hb =>
      have hpos' := mul_two_zpow_pos h' e'
      cases s with
      | negative =>
        cases s' with
        | negative =>
          -- Of two negative numbers the larger one has the smaller exponent or mantissa.
          rw [rational_negative, rational_negative, neg_lt_neg_iff]
          simp only [place, Sign.apply, Prod.Lex.lt_iff] at h
          exact mul_two_zpow_lt hb.1 ha.1 (by simpa [eq_comm] using h)
        | positive =>
          rw [rational_negative, rational_positive]
          linarith
      | positive =>
        cases s' with
        | negative => simp [place, Sign.apply, Prod.Lex.lt_iff] at h
        | positive =>
          rw [rational_positive, rational_positive]
          simp only [place, Sign.apply, Prod.Lex.lt_iff] at h
          exact mul_two_zpow_lt ha.1 hb.1 (by simpa using h)

lemma rational_eq_of_place_eq (ha : Storable a) (hb : Storable b) (h : place a = place b) :
    rational a = rational b := by
  cases a, ha using Storable.cases with
  | zero s =>
    cases b, hb using Storable.cases with
    | zero s' => rfl
    | finite s' m' e' h' hb => cases s' <;> simp [place, Sign.apply] at h
  | finite s m e hm ha =>
    cases b, hb using Storable.cases with
    | zero s' => cases s <;> simp [place, Sign.apply] at h
    | finite s' m' e' h' hb =>
      cases s <;> cases s' <;> simp [place, Sign.apply] at h
      · rw [rational_negative, rational_negative, h.1, h.2]
      · rw [rational_positive, rational_positive, h.1, h.2]

/-- Finite numbers have the places of what they stand for. -/
lemma place_lt_iff (ha : Storable a) (hb : Storable b) :
    place a < place b ↔ rational a < rational b := by
  constructor
  · exact rational_lt_of_place_lt ha hb
  · intro h
    rcases lt_trichotomy (place a) (place b) with hlt | heq | hgt
    · exact hlt
    · exact absurd (rational_eq_of_place_eq ha hb heq) h.ne
    · exact absurd (rational_lt_of_place_lt hb ha hgt) h.asymm

theorem lt_iff_value (hx : x.isFinite = true) (hy : y.isFinite = true) :
    x < y ↔ value x < value y := by
  have hx' := storable_parts_iff.2 hx
  have hy' := storable_parts_iff.2 hy
  rw [lt_iff, place_lt_iff hx' hy']
  exact ⟨fun h => h.2.2, fun h => ⟨hx'.ne_notANumber, hy'.ne_notANumber, h⟩⟩

lemma le_iff_value (hx : x.isFinite = true) (hy : y.isFinite = true) :
    x ≤ y ↔ value x ≤ value y := by
  have hx' := storable_parts_iff.2 hx
  have hy' := storable_parts_iff.2 hy
  rw [le_iff, ← not_lt, place_lt_iff hy' hx', not_lt]
  exact ⟨fun h => h.2.2, fun h => ⟨hx'.ne_notANumber, hy'.ne_notANumber, h⟩⟩

lemma eq_of_parts_eq (h : parts x = parts y) : x = y := by
  obtain ⟨⟨b, hb⟩⟩ := x
  obtain ⟨⟨b', hb'⟩⟩ := y
  have hbits : b.toBitVec = b'.toBitVec := (unpack_inj_of_valid hb hb').1 h
  obtain rfl := UInt64.toBitVec_inj.1 hbits
  rfl

/-- Numbers that stand for the same number, which is not zero, are the same. -/
lemma eq_of_value_eq (hx : x.isFinite = true) (hy : y.isFinite = true) (h : value x = value y)
    (hne : value x ≠ 0) : x = y := by
  have hx' := storable_parts_iff.2 hx
  have hy' := storable_parts_iff.2 hy
  have hplace : place (parts x) = place (parts y) :=
    le_antisymm (not_lt.1 fun hlt => ((place_lt_iff hy' hx').1 hlt).ne h.symm)
      (not_lt.1 fun hlt => ((place_lt_iff hx' hy').1 hlt).ne h)
  refine eq_of_parts_eq ?_
  rw [h] at hne
  rw [value] at hne
  generalize parts x = a at hx' hplace ⊢
  generalize parts y = b at hy' hplace hne ⊢
  cases b, hy' using Storable.cases with
  | zero s => exact absurd rfl hne
  | finite s m e hm _ =>
    cases a, hx' using Storable.cases with
    | zero s' => cases s <;> simp [place, Sign.apply] at hplace
    | finite s' m' e' hm' _ => cases s <;> cases s' <;> simp_all [place, Sign.apply]

lemma lt_of_not_le (hx : x.isFinite = true) (hy : y.isFinite = true) (h : ¬x ≤ y) : y < x := by
  have hx' := (storable_parts_iff.2 hx).ne_notANumber
  have hy' := (storable_parts_iff.2 hy).ne_notANumber
  rw [le_iff] at h
  exact lt_iff.2 ⟨hy', hx', not_le.1 fun hle => h ⟨hx', hy', hle⟩⟩

lemma value_zero : value 0.0 = 0 := rfl

lemma pos_iff_value (hx : x.isFinite = true) : 0.0 < x ↔ 0 < value x := by
  rw [lt_iff_value rfl hx, value_zero]

/-- Of the finite numbers only the zeros stand for zero. -/
lemma beq_zero_iff_value (hx : x.isFinite = true) : (x == 0.0) = true ↔ value x = 0 := by
  have hx' := storable_parts_iff.2 hx
  rw [beq_zero_iff, value]
  generalize parts x = a at hx' ⊢
  cases a, hx' using Storable.cases with
  | zero sign => exact ⟨fun _ => rfl, fun _ => ⟨sign, rfl⟩⟩
  | finite sign m e hm =>
    have hpos := mul_two_zpow_pos hm e
    cases sign <;> simp [rational_positive, rational_negative, hpos.ne']

/-- A positive finite number has a mantissa. -/
lemma exists_parts_of_pos (hx : x.isFinite = true) (hpos : 0.0 < x) :
    ∃ m e hm, parts x = .finite .positive m e hm :=
  (zero_lt_iff.1 hpos).resolve_left (parts_ne_infinity hx)

/-- Infinite numbers are beyond all finite ones. -/
lemma place_lt_infinity (ha : Storable a) :
    place (.infinity .negative) < place a ∧ place a < place (.infinity .positive) := by
  cases a, ha using Storable.cases with
  | zero s => simp [place, Sign.apply, Prod.Lex.lt_iff]
  | finite s m e hm ha => cases s <;> simp [place, Sign.apply, Prod.Lex.lt_iff]

/-- A number between finite ones is finite. -/
lemma isFinite_of_between {z : Float} (hx : x.isFinite = true) (hz : z.isFinite = true)
    (hxy : x < y) (hyz : y < z) : y.isFinite = true := by
  obtain ⟨-, hy, hxy⟩ := lt_iff.1 hxy
  obtain ⟨-, -, hyz⟩ := lt_iff.1 hyz
  change (parts y).isFinite = true
  cases h : parts y with
  | notANumber => exact absurd h hy
  | infinity s =>
    cases s with
    | negative =>
      rw [h] at hxy
      exact (hxy.asymm (place_lt_infinity (storable_parts_iff.2 hx)).1).elim
    | positive =>
      rw [h] at hyz
      exact (hyz.asymm (place_lt_infinity (storable_parts_iff.2 hz)).2).elim
  | zero s => rfl
  | finite s m e hm => rfl

end LikelihoodRatio.Binary64
