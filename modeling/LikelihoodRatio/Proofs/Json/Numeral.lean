/-
# Numerals that are written

A numeral that is written for a finite number stands for that number (`toFloat_numeralOfFloat`), and
is one that a reader accepts (`wellFormed_numeralOfFloat`).  Whatever notation is chosen, the digits
are those of the decimal with zeros around them, and the point and the exponent make up for the
zeros at the end (`exists_decimal_numeralOfDecimal`).
-/
import LikelihoodRatio.Json.Token
import LikelihoodRatio.Json.Writer
import LikelihoodRatio.Proofs.Decimal.Shortest

namespace LikelihoodRatio

/-! ### Digits -/

lemma valueOfDigits_append (ds cs : List Char) :
    valueOfDigits (ds ++ cs) = 10 ^ cs.length * valueOfDigits ds + valueOfDigits cs := by
  change Nat.ofDigitChars 10 (ds ++ cs) 0 = _
  rw [Nat.ofDigitChars_append, Nat.ofDigitChars_eq_ofDigitChars_zero]
  rfl

lemma valueOfDigits_replicate_zero (k : ℕ) : valueOfDigits (List.replicate k '0') = 0 :=
  Nat.ofDigitChars_replicate_zero

lemma valueOfDigits_digitChars (n : ℕ) : valueOfDigits (Decimal.digitChars n) = n :=
  Nat.ofDigitChars_ten_toDigits

lemma isDigit_of_mem_digitChars {n : ℕ} {c : Char} (hc : c ∈ Decimal.digitChars n) :
    c.isDigit = true :=
  Nat.isDigit_of_mem_toDigits (by norm_num) (by norm_num) hc

lemma isDigit_of_mem_zeros (k : ℕ) : ∀ c ∈ List.replicate k '0', c.isDigit = true := by
  intro c hc
  rw [List.eq_of_mem_replicate hc]
  decide

/-- A number other than zero starts with another digit. -/
lemma exists_digitChars_eq_cons {n : ℕ} (hn : n ≠ 0) :
    ∃ d ds, Decimal.digitChars n = d :: ds ∧ d ≠ '0' := by
  induction n using Nat.strongRecOn with
  | ind n ih =>
    by_cases hlt : n < 10
    · refine ⟨n.digitChar, [], Nat.toDigits_of_lt_base hlt, fun hzero => ?_⟩
      exact hn (Nat.digitChar_eq_zero.1 hzero)
    · obtain ⟨d, ds, hds, hd⟩ := ih (n / 10) (by omega) (by omega)
      refine ⟨d, ds ++ [(n % 10).digitChar], ?_, hd⟩
      rw [Decimal.digitChars, Nat.toDigits_of_base_le (by norm_num) (by omega)]
      exact congrArg (· ++ [(n % 10).digitChar]) hds

/-! ### Values of numerals -/

/-- The rational number that a numeral stands for. -/
def Numeral.rational (n : Numeral) : ℚ := if n.negative then -n.decimal.value else n.decimal.value

/-- A numeral is read as the nearest number. -/
theorem Numeral.roundsTo_toFloat (n : Numeral) :
    Binary64.RoundsTo n.rational (Binary64.parts n.toFloat) := by
  have hround := Decimal.roundsTo_toFloat n.decimal
  rw [Numeral.rational, Numeral.toFloat]
  split_ifs
  · rw [Binary64.parts_neg]
    exact hround.neg
  · exact hround

/-! ### Numerals that can be read -/

/-- The digits of a numeral are digits, where there have to be some there are, and there is no zero
in front of another digit before the point. -/
structure Numeral.WellFormed (n : Numeral) : Prop where
  whole : Json.isWhole n.whole = true
  whole_digits : ∀ c ∈ n.whole, c.isDigit = true
  fraction_digits : ∀ c ∈ n.fraction, c.isDigit = true
  exponent_ne_nil : ∀ e, n.exponent = some e → e.digits ≠ []
  exponent_digits : ∀ e, n.exponent = some e → ∀ c ∈ e.digits, c.isDigit = true

namespace Json

open Decimal

lemma isWhole_cons {d : Char} (hd : d ≠ '0') (ds : List Char) : isWhole (d :: ds) = true := by
  simp [isWhole, hd]

/-! ### Positional notation -/

section Positional

variable (negative : Bool) {ds : List Char}

/-- A fraction has a zero before the point. -/
lemma positionalNumeral_negSucc (hds : ds ≠ []) (k : ℕ) :
    positionalNumeral negative ds (Int.negSucc k) =
      ⟨negative, ['0'], List.replicate k '0' ++ ds, none⟩ := by
  have hbefore : (Int.negSucc k + 1).toNat = 0 := by omega
  have hzeros : (-Int.negSucc k).toNat = k + 1 := by omega
  have hne : List.replicate k '0' ++ ds ≠ [] := by simp [hds]
  rw [positionalNumeral, hbefore, hzeros, Nat.zero_sub, List.replicate_succ]
  simp [hne]

/-- The point stands among the digits. -/
lemma positionalNumeral_of_lt {k : ℕ} (hk : k + 1 < ds.length) :
    positionalNumeral negative ds k = ⟨negative, ds.take (k + 1), ds.drop (k + 1), none⟩ := by
  have hbefore : ((k : ℤ) + 1).toNat = k + 1 := by omega
  have hzeros : (-(k : ℤ)).toNat = 0 := by omega
  have hne : ds.drop (k + 1) ≠ [] := by simp [hk]
  rw [positionalNumeral, hbefore, hzeros, Nat.sub_eq_zero_of_le hk.le]
  simp [hne]

/-- The point stands behind the digits. -/
lemma positionalNumeral_of_ge {k : ℕ} (hk : ds.length ≤ k + 1) :
    positionalNumeral negative ds k =
      ⟨negative, ds ++ List.replicate (k + 1 - ds.length) '0', ['0'], none⟩ := by
  have hbefore : ((k : ℤ) + 1).toNat = k + 1 := by omega
  have hzeros : (-(k : ℤ)).toNat = 0 := by omega
  have hlength : (ds ++ List.replicate (k + 1 - ds.length) '0').length = k + 1 := by
    rw [List.length_append, List.length_replicate]
    omega
  rw [positionalNumeral, hbefore, hzeros, List.replicate_zero, List.nil_append,
    List.take_of_length_le hlength.le, List.drop_of_length_le hlength.le]
  simp

end Positional

/-! ### Decimals as numerals -/

section Notations

variable (negative : Bool) {ds : List Char}

/-- Digits around a point stand for the digits with zeros moved to them from the power of ten. -/
lemma exists_decimal_positionalNumeral (hds : ds ≠ []) (e : ℤ) :
    ∃ k : ℕ, (positionalNumeral negative ds e).decimal =
      ⟨valueOfDigits ds * 10 ^ k, e + 1 - ds.length - k⟩ := by
  cases e with
  | negSucc k =>
    have hdigits : valueOfDigits (['0'] ++ (List.replicate k '0' ++ ds)) = valueOfDigits ds := by
      rw [← List.append_assoc, List.singleton_append, ← List.replicate_succ,
        valueOfDigits_append, valueOfDigits_replicate_zero, mul_zero, zero_add]
    refine ⟨0, ?_⟩
    rw [positionalNumeral_negSucc _ hds, Numeral.decimal, hdigits, List.length_append,
      List.length_replicate, pow_zero, mul_one]
    congr 1
    simp only [Option.map_none, Option.getD_none]
    omega
  | ofNat k =>
    rw [Int.ofNat_eq_natCast]
    by_cases hk : k + 1 < ds.length
    · refine ⟨0, ?_⟩
      rw [positionalNumeral_of_lt _ hk, Numeral.decimal, List.take_append_drop,
        List.length_drop, pow_zero, mul_one]
      congr 1
      simp only [Option.map_none, Option.getD_none]
      omega
    · have hdigits : valueOfDigits (ds ++ List.replicate (k + 1 - ds.length) '0' ++ ['0']) =
          valueOfDigits ds * 10 ^ (k + 1 - ds.length + 1) := by
        rw [List.append_assoc, ← List.replicate_succ', valueOfDigits_append,
          valueOfDigits_replicate_zero, List.length_replicate, add_zero, mul_comm]
      refine ⟨k + 1 - ds.length + 1, ?_⟩
      rw [positionalNumeral_of_ge _ (not_lt.1 hk), Numeral.decimal, hdigits]
      congr 1
      simp only [Option.map_none, Option.getD_none, List.length_singleton]
      omega

/-- An exponent is written as its sign and its magnitude. -/
lemma value_exponent (e : ℤ) :
    NumeralExponent.value ⟨decide (e < 0), digitChars e.natAbs⟩ = e := by
  rw [NumeralExponent.value, valueOfDigits_digitChars]
  split_ifs with hneg
  · rw [decide_eq_true_eq] at hneg
    omega
  · rw [decide_eq_true_eq] at hneg
    omega

/-- With an exponent the point stands behind the first digit. -/
lemma decimal_exponentNumeral (hds : ds ≠ []) (e : ℤ) :
    (exponentNumeral negative ds e).decimal = ⟨valueOfDigits ds, e + 1 - ds.length⟩ := by
  have hlength := List.length_pos_iff.2 hds
  rw [exponentNumeral, Numeral.decimal, List.take_append_drop, List.length_drop]
  congr 1
  rw [Option.map_some, Option.getD_some, value_exponent]
  omega

end Notations

/-- The numeral of a decimal stands for the decimal, with zeros moved from the power of ten to the
digits. -/
lemma exists_decimal_numeralOfDecimal (negative : Bool) (d : Decimal) :
    ∃ k : ℕ, (numeralOfDecimal negative d).decimal = ⟨d.digits * 10 ^ k, d.exponent - k⟩ := by
  have hvalue := valueOfDigits_digitChars d.digits
  have hne : digitChars d.digits ≠ [] := Nat.toDigits_ne_nil
  have hexp : d.exponent + (digitChars d.digits).length - 1 + 1 - (digitChars d.digits).length =
      d.exponent := by omega
  rw [numeralOfDecimal]
  split_ifs
  · obtain ⟨k, hk⟩ := exists_decimal_positionalNumeral negative hne
      (d.exponent + (digitChars d.digits).length - 1)
    rw [hvalue, hexp] at hk
    exact ⟨k, hk⟩
  · refine ⟨0, ?_⟩
    rw [decimal_exponentNumeral _ hne, hvalue, hexp, pow_zero, mul_one, Nat.cast_zero, sub_zero]

/-- A written decimal is read as the same number. -/
lemma toFloat_decimal_numeralOfDecimal (negative : Bool) {d : Decimal} (hd : d.digits ≠ 0) :
    (numeralOfDecimal negative d).decimal.toFloat = d.toFloat := by
  obtain ⟨k, hk⟩ := exists_decimal_numeralOfDecimal negative d
  rw [hk, toFloat_mul_pow hd, sub_add_cancel]

lemma numeralOfDecimal_zero (negative : Bool) :
    numeralOfDecimal negative ⟨0, 0⟩ = ⟨negative, ['0'], ['0'], none⟩ := rfl

lemma negative_numeralOfDecimal (negative : Bool) (d : Decimal) :
    (numeralOfDecimal negative d).negative = negative := by
  rw [numeralOfDecimal]
  split_ifs <;> rfl

/-- **A finite number is read back from its numeral.** -/
theorem toFloat_numeralOfFloat {x : Float} (hx : x.isFinite = true) :
    (numeralOfFloat x).toFloat = x := by
  have hshortest := toFloat_shortest .toEven hx
  have hdecimal : (numeralOfFloat x).decimal.toFloat = x.abs := by
    rw [numeralOfFloat]
    by_cases hzero : (shortest .toEven x).digits = 0
    · have hread : (⟨0, -1⟩ : Decimal).toFloat = (⟨0, 0⟩ : Decimal).toFloat := by
        rw [toFloat, toFloat, trimmed, if_neg (by simp), trimmed, if_neg (by simp)]
        decide +kernel
      rw [← hshortest, shortest_digits_eq_zero hx hzero, numeralOfDecimal_zero]
      exact hread
    · rw [toFloat_decimal_numeralOfDecimal _ hzero, hshortest]
  rw [Numeral.toFloat, hdecimal, numeralOfFloat, negative_numeralOfDecimal]
  exact Binary64.ofSign_abs hx

/-! ### Numerals of decimals can be read -/

lemma wellFormed_numeralOfDecimal (negative : Bool) {d : Decimal} (hd : d.digits ≠ 0) :
    (numeralOfDecimal negative d).WellFormed := by
  obtain ⟨c, cs, hds, hc⟩ := exists_digitChars_eq_cons hd
  have hdigits : ∀ a ∈ c :: cs, a.isDigit = true := fun a ha =>
    isDigit_of_mem_digitChars (hds ▸ ha)
  rw [numeralOfDecimal, hds]
  split_ifs with hpositional
  · cases d.exponent + (c :: cs).length - 1 with
    | negSucc k =>
      rw [positionalNumeral_negSucc _ (List.cons_ne_nil c cs)]
      exact ⟨rfl, isDigit_of_mem_zeros 1,
        List.forall_mem_append.2 ⟨isDigit_of_mem_zeros k, hdigits⟩, nofun, nofun⟩
    | ofNat k =>
      rw [Int.ofNat_eq_natCast]
      by_cases hk : k + 1 < (c :: cs).length
      · rw [positionalNumeral_of_lt _ hk]
        exact ⟨isWhole_cons hc _, fun a ha => hdigits a (List.mem_of_mem_take ha),
          fun a ha => hdigits a (List.mem_of_mem_drop ha), nofun, nofun⟩
      · rw [positionalNumeral_of_ge _ (not_lt.1 hk)]
        exact ⟨isWhole_cons hc _, List.forall_mem_append.2 ⟨hdigits, isDigit_of_mem_zeros _⟩,
          isDigit_of_mem_zeros 1, nofun, nofun⟩
  · rw [exponentNumeral]
    refine ⟨isWhole_cons hc [], fun a ha => hdigits a (List.mem_of_mem_take ha),
      fun a ha => hdigits a (List.mem_of_mem_drop ha), ?_, ?_⟩
    · rintro e ⟨⟩
      exact Nat.toDigits_ne_nil
    · rintro e ⟨⟩ a ha
      exact isDigit_of_mem_digitChars ha

theorem wellFormed_numeralOfFloat {x : Float} (hx : x.isFinite = true) :
    (numeralOfFloat x).WellFormed := by
  rw [numeralOfFloat]
  by_cases hzero : (shortest .toEven x).digits = 0
  · rw [shortest_digits_eq_zero hx hzero, numeralOfDecimal_zero]
    exact ⟨rfl, isDigit_of_mem_zeros 1, isDigit_of_mem_zeros 1, nofun, nofun⟩
  · exact wellFormed_numeralOfDecimal _ hzero

end Json

end LikelihoodRatio
