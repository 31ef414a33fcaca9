/-
# Numbers in running text

The text of a number can be read back (`ofPlain_plain`), so that no two numbers have the same text
(`plain_inj`).  Its digits are those of a decimal that reads back, with zeros around them that the
point makes up for (`ofPositional_positional`).
-/
import LikelihoodRatio.Proofs.Json.Numeral

namespace LikelihoodRatio.Decimal

open Binary64

/-! ### Positional notation -/

/-- The decimal that is written as digits around a point. -/
def ofPositional (cs : List Char) : Decimal :=
  let fraction := (cs.dropWhile (· != '.')).tail
  ⟨valueOfDigits (cs.takeWhile (· != '.') ++ fraction), -fraction.length⟩

variable {ds : List Char}

lemma ne_point_of_isDigit {c : Char} (h : c.isDigit = true) : (c != '.') = true := by
  rw [bne_iff_ne]
  rintro rfl
  exact absurd h (by decide)

lemma ofPositional_point (hds : ∀ c ∈ ds, c.isDigit = true) (cs : List Char) :
    ofPositional (ds ++ '.' :: cs) = ⟨valueOfDigits (ds ++ cs), -cs.length⟩ := by
  have hne : ∀ c ∈ ds, (c != '.') = true := fun c hc => ne_point_of_isDigit (hds c hc)
  simp [ofPositional, List.dropWhile_append_of_pos hne, List.takeWhile_append_of_pos hne]

lemma ofPositional_digits (hds : ∀ c ∈ ds, c.isDigit = true) :
    ofPositional ds = ⟨valueOfDigits ds, 0⟩ := by
  have hne : ∀ c ∈ ds, (c != '.') = true := fun c hc => ne_point_of_isDigit (hds c hc)
  have hnone : ds.dropWhile (· != '.') = [] := List.dropWhile_eq_nil_iff.2 hne
  have hall : ds.takeWhile (· != '.') = ds := List.takeWhile_eq_self_iff.2 hne
  simp [ofPositional, hnone, hall]

/-- The point stands behind a digit, and zeros in front do not change the number. -/
lemma exists_pointed_eq (hds : ∀ c ∈ ds, c.isDigit = true) {places : ℕ} (hplaces : places ≠ 0) :
    ∃ d whole fraction, pointed ds places = d :: whole ++ '.' :: fraction ∧
      (∀ c ∈ d :: whole, c.isDigit = true) ∧ fraction.length = places ∧
      valueOfDigits (d :: whole ++ fraction) = valueOfDigits ds := by
  let padded := List.replicate (places + 1 - ds.length) '0' ++ ds
  have hlength : places < padded.length := by
    rw [List.length_append, List.length_replicate]
    omega
  have hdigits : ∀ c ∈ padded, c.isDigit = true := by
    intro c hc
    rcases List.mem_append.1 hc with hc | hc
    · exact isDigit_of_mem_zeros _ c hc
    · exact hds c hc
  have hne : padded.take (padded.length - places) ≠ [] := by
    rw [ne_eq, List.take_eq_nil_iff, ← List.length_eq_zero_iff]
    omega
  obtain ⟨d, whole, hwhole⟩ := List.exists_cons_of_ne_nil hne
  refine ⟨d, whole, padded.drop (padded.length - places), ?_, ?_, ?_, ?_⟩
  · rw [← hwhole, pointed, if_neg hplaces]
  · rw [← hwhole]
    exact fun c hc => hdigits c (List.mem_of_mem_take hc)
  · rw [List.length_drop]
    omega
  · rw [← hwhole, List.take_append_drop, valueOfDigits_append, valueOfDigits_replicate_zero,
      mul_zero, zero_add]

/-- Wherever the point stands, the digits are the same. -/
lemma ofPositional_pointed (hds : ∀ c ∈ ds, c.isDigit = true) (places : ℕ) :
    ofPositional (pointed ds places) = ⟨valueOfDigits ds, -places⟩ := by
  by_cases hplaces : places = 0
  · rw [pointed, if_pos hplaces, ofPositional_digits hds, hplaces]
    rfl
  · obtain ⟨d, whole, fraction, hpointed, hwhole, hlength, hvalue⟩ := exists_pointed_eq hds hplaces
    rw [hpointed, ofPositional_point hwhole, hvalue, hlength]

lemma isDigit_of_mem_digitChars_zeros (n k : ℕ) :
    ∀ c ∈ digitChars n ++ List.replicate k '0', c.isDigit = true := by
  intro c hc
  rcases List.mem_append.1 hc with hc | hc
  · exact isDigit_of_mem_digitChars hc
  · exact isDigit_of_mem_zeros k c hc

/-- In positional notation a decimal is written with zeros moved to the digits from a positive power
of ten. -/
lemma ofPositional_positional {d : Decimal} (hd : d.digits ≠ 0) :
    ofPositional d.positional =
      ⟨d.digits * 10 ^ d.exponent.toNat, d.exponent - d.exponent.toNat⟩ := by
  rw [positional, if_neg hd, ofPositional_pointed (isDigit_of_mem_digitChars_zeros _ _),
    valueOfDigits_append, valueOfDigits_replicate_zero, valueOfDigits_digitChars,
    List.length_replicate, add_zero, mul_comm]
  congr 1
  omega

lemma toFloat_ofPositional_shortest (tie : Tie) {x : Float} (hx : x.isFinite = true) :
    (ofPositional (shortest tie x).positional).toFloat = x.abs := by
  rw [← toFloat_shortest tie hx]
  by_cases hzero : (shortest tie x).digits = 0
  · rw [shortest_digits_eq_zero hx hzero]
    rfl
  · rw [ofPositional_positional hzero, toFloat_mul_pow hzero, sub_add_cancel]

/-- A text in positional notation starts with a digit. -/
lemma exists_positional_eq_cons (d : Decimal) :
    ∃ c cs, d.positional = c :: cs ∧ c.isDigit = true := by
  rw [positional]
  split_ifs
  · exact ⟨'0', [], rfl, rfl⟩
  · have hds := isDigit_of_mem_digitChars_zeros d.digits d.exponent.toNat
    by_cases hplaces : (-d.exponent).toNat = 0
    · have hne : digitChars d.digits ++ List.replicate d.exponent.toNat '0' ≠ [] :=
        List.append_ne_nil_of_left_ne_nil Nat.toDigits_ne_nil _
      obtain ⟨c, cs, hcs⟩ := List.exists_cons_of_ne_nil hne
      rw [pointed, if_pos hplaces, hcs]
      exact ⟨c, cs, rfl, hds c (hcs ▸ List.mem_cons_self)⟩
    · obtain ⟨c, whole, fraction, hpointed, hwhole, -⟩ := exists_pointed_eq hds hplaces
      exact ⟨c, _, hpointed, hwhole c List.mem_cons_self⟩

/-! ### Texts of numbers -/

/-- The number that is written as a text. -/
def ofPlain : List Char → Float
  | ['N', 'a', 'N'] => 0.0 / 0.0
  | ['i', 'n', 'f'] => 1.0 / 0.0
  | '-' :: cs => -ofPlain cs
  | cs => (ofPositional cs).toFloat

lemma ofPlain_cons {c : Char} (hc : c.isDigit = true) (cs : List Char) :
    ofPlain (c :: cs) = (ofPositional (c :: cs)).toFloat := by
  have hne {d : Char} (hd : d.isDigit = false) {ds : List Char} : c :: cs ≠ d :: ds := by
    intro h
    rw [(List.cons.inj h).1, hd] at hc
    cases hc
  unfold ofPlain
  split
  · exact absurd ‹_› (hne rfl)
  · exact absurd ‹_› (hne rfl)
  · exact absurd ‹_› (hne rfl)
  · rfl

/-- A number other than the undefined one has its sign in front. -/
lemma toList_plain {x : Float} (hx : ¬x.isNaN = true) :
    (plain x).toList =
      if Binary.isNegative x then
        '-' :: if x.isInf then ['i', 'n', 'f'] else (shortest .up x).positional
      else if x.isInf then ['i', 'n', 'f'] else (shortest .up x).positional := by
  rw [plain, if_neg hx]
  simp only [String.toList_ofList]

/-- A finite number is read back from its sign and the digits of its magnitude. -/
lemma ofPlain_plain_of_isFinite {x : Float} (hx : x.isFinite = true) :
    ofPlain (plain x).toList = x := by
  have hnan : ¬x.isNaN = true := by
    rw [isNaN_iff]
    exact (storable_parts_iff.2 hx).ne_notANumber
  have hinf : ¬x.isInf = true := by
    change ¬(parts x).isInf = true
    cases h : parts x with
    | infinity sign => exact absurd h (parts_ne_infinity hx)
    | _ => simp [Float.Model.UnpackedFloat.isInf]
  have habs := toFloat_ofPositional_shortest .up hx
  obtain ⟨c, cs, hcs, hc⟩ := exists_positional_eq_cons (shortest .up x)
  rw [hcs] at habs
  rw [toList_plain hnan, if_neg hinf, hcs]
  conv_rhs => rw [← ofSign_abs hx]
  split_ifs
  · rw [ofPlain, ofPlain_cons hc, habs]
  · rw [ofPlain_cons hc, habs]

/-- **The text of a number is read back.** -/
theorem ofPlain_plain (x : Float) : ofPlain (plain x).toList = x := by
  rcases parts_cases x with hx | ⟨sign, hx⟩ | hx
  · have hx : x = 0.0 / 0.0 := eq_of_parts_eq hx
    rw [hx, plain, if_pos (by decide +kernel)]
    rfl
  · cases sign with
    | positive =>
      have hx : x = 1.0 / 0.0 := eq_of_parts_eq hx
      rw [hx, toList_plain (by decide +kernel), if_neg (by decide +kernel),
        if_pos (by decide +kernel), ofPlain]
    | negative =>
      have hx : x = -1.0 / 0.0 := eq_of_parts_eq hx
      rw [hx, toList_plain (by decide +kernel), if_pos (by decide +kernel),
        if_pos (by decide +kernel), ofPlain, ofPlain]
      exact eq_of_parts_eq rfl
  · exact ofPlain_plain_of_isFinite (storable_parts_iff.1 hx)

/-- No two numbers have the same text. -/
theorem plain_inj {x y : Float} : plain x = plain y ↔ x = y := by
  refine ⟨fun h => ?_, fun h => congrArg plain h⟩
  rw [← ofPlain_plain x, h, ofPlain_plain y]

end LikelihoodRatio.Decimal
