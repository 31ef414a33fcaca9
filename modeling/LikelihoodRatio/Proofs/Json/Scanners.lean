/-
# Tokens are read

Each scanner takes exactly one spelling off the front of a text.  A numeral is read in front of
everything that cannot continue it (`numeral?_append`), and a string is read whatever characters it
has and however these are spelled (`token?_string`).
-/
import LikelihoodRatio.Proofs.Json.Grammar

namespace LikelihoodRatio.Json

variable {cs ds rest : List Char}

/-! ### Numerals -/

/-- A text does not start with a digit. -/
def NoDigit (cs : List Char) : Prop := ∀ c ∈ cs.head?, c.isDigit = false

/-- A text does not start with a character that continues a numeral. -/
def Delimited (cs : List Char) : Prop :=
  ∀ c ∈ cs.head?, c.isDigit = false ∧ c ≠ '.' ∧ c ≠ 'e' ∧ c ≠ 'E'

lemma Delimited.noDigit (h : Delimited cs) : NoDigit cs := fun c hc => (h c hc).1

lemma delimited_nil : Delimited [] := nofun

lemma delimited_cons {c : Char} (hc : c = ',' ∨ c = ']' ∨ c = '}') (cs : List Char) :
    Delimited (c :: cs) := by
  rintro _ ⟨⟩
  rcases hc with rfl | rfl | rfl <;> decide

/-- Blanks continue no numeral. -/
lemma Delimited.blank_append {blanks : List Char} (hblanks : Blank blanks) (h : Delimited cs) :
    Delimited (blanks ++ cs) := by
  cases blanks with
  | nil => exact h
  | cons c blanks =>
    rintro _ ⟨⟩
    have hc := hblanks c List.mem_cons_self
    simp only [isBlank, Bool.or_eq_true, beq_iff_eq] at hc
    rcases hc with ((rfl | rfl) | rfl) | rfl <;> decide

lemma noDigit_cons {c : Char} (hc : c.isDigit = false) (cs : List Char) : NoDigit (c :: cs) := by
  rintro _ ⟨⟩
  exact hc

lemma takeWhile_digits (hds : ∀ d ∈ ds, d.isDigit = true) (hrest : NoDigit rest) :
    (ds ++ rest).takeWhile Char.isDigit = ds ∧ (ds ++ rest).dropWhile Char.isDigit = rest := by
  rw [List.takeWhile_append_of_pos hds, List.dropWhile_append_of_pos hds]
  cases rest with
  | nil => simp
  | cons c rest =>
    have hc : c.isDigit = false := hrest c rfl
    simp [hc]

lemma digits?_append (hne : ds ≠ []) (hds : ∀ d ∈ ds, d.isDigit = true) (hrest : NoDigit rest) :
    digits? (ds ++ rest) = some (ds, rest) := by
  obtain ⟨htake, hdrop⟩ := takeWhile_digits hds hrest
  simp only [digits?, htake, hdrop, if_neg hne]

lemma whole?_append (hwhole : isWhole ds = true) (hds : ∀ d ∈ ds, d.isDigit = true)
    (hrest : NoDigit rest) : whole? (ds ++ rest) = some (ds, rest) := by
  obtain ⟨htake, hdrop⟩ := takeWhile_digits hds hrest
  simp only [whole?, htake, hdrop, if_pos hwhole]

/-- The digits after the point, and the point if there are any. -/
lemma fraction?_append (hds : ∀ d ∈ ds, d.isDigit = true) (hrest : NoDigit rest)
    (hpoint : ∀ c ∈ rest.head?, c ≠ '.') :
    fraction? ((if ds = [] then [] else '.' :: ds) ++ rest) = some (ds, rest) := by
  split_ifs with hnil
  · rw [hnil, List.nil_append, fraction?]
    rintro cs rfl
    exact hpoint '.' rfl rfl
  · exact digits?_append hnil hds hrest

lemma exponentSign_append {sign : List Char} {negative : Bool} (h : SpellsSign sign negative)
    (hne : ds ≠ []) (hds : ∀ d ∈ ds, d.isDigit = true) (rest : List Char) :
    exponentSign (sign ++ ds ++ rest) = (negative, ds ++ rest) := by
  cases h with
  | minus => rfl
  | plus => rfl
  | none =>
    obtain ⟨d, ds, rfl⟩ := List.exists_cons_of_ne_nil hne
    have hd := hds d List.mem_cons_self
    rw [List.nil_append, List.cons_append, exponentSign]
    · rintro _ ⟨⟩
      cases hd
    · rintro _ ⟨⟩
      cases hd

lemma exponent?_append {e : Option NumeralExponent} (h : SpellsExponent cs e)
    (hne : ∀ x, e = some x → x.digits ≠ [])
    (hds : ∀ x, e = some x → ∀ d ∈ x.digits, d.isDigit = true) (hrest : Delimited rest) :
    exponent? (cs ++ rest) = some (e, rest) := by
  cases h with
  | none =>
    cases rest with
    | nil => rfl
    | cons c rest =>
      obtain ⟨-, -, he, hE⟩ := hrest c rfl
      exact if_neg (not_or.2 ⟨he, hE⟩)
  | @some letter sign digits negative hletter hsign =>
    have hdigits := digits?_append (hne _ rfl) (hds _ rfl) hrest.noDigit
    have hscan := exponentSign_append hsign (hne _ rfl) (hds _ rfl) rest
    rw [List.cons_append, exponent?, if_pos hletter, hscan, hdigits]
    rfl

lemma minus_append (negative : Bool) (hcs : ∀ c ∈ cs.head?, c ≠ '-') :
    minus ((if negative then ['-'] else []) ++ cs) = (negative, cs) := by
  cases negative with
  | true => rfl
  | false =>
    change minus cs = _
    unfold minus
    split
    · exact absurd rfl (hcs '-' rfl)
    · rfl

/-- **A numeral is read**, if nothing follows that could continue it. -/
theorem numeral?_append {n : Numeral} (h : SpellsNumeral cs n) (hrest : Delimited rest) :
    numeral? (cs ++ rest) = some (n, rest) := by
  obtain @⟨⟨negative, whole, fraction, exponent⟩, exponentText, hn, hexponent⟩ := h
  obtain ⟨hwhole, hwdigits, hfdigits, hene, hedigits⟩ := hn
  set afterFraction := exponentText ++ rest with hafterFraction
  set afterWhole := (if fraction = [] then [] else '.' :: fraction) ++ afterFraction
    with hafterWhole
  have hchars : mantissa ⟨negative, whole, fraction, exponent⟩ ++ exponentText ++ rest =
      (if negative then ['-'] else []) ++ (whole ++ afterWhole) := by
    rw [mantissa, hafterWhole, hafterFraction]
    simp only [List.append_assoc]
  -- What follows the digits is a point, an exponent, or the rest of the text.
  have hfraction : ∀ c ∈ afterFraction.head?, c.isDigit = false ∧ c ≠ '.' := by
    cases hexponent with
    | none => exact fun c hc => ⟨(hrest c hc).1, (hrest c hc).2.1⟩
    | some hletter _ =>
      rintro _ ⟨⟩
      rcases hletter with rfl | rfl <;> decide
  have hpoint : NoDigit afterWhole := by
    rw [hafterWhole]
    split_ifs
    · exact fun c hc => (hfraction c hc).1
    · exact noDigit_cons rfl _
  have hminus : ∀ c ∈ (whole ++ afterWhole).head?, c ≠ '-' := by
    cases whole with
    | nil => cases hwhole
    | cons d ds =>
      rintro _ ⟨⟩ rfl
      cases hwdigits '-' List.mem_cons_self
  rw [hchars, numeral?, minus_append negative hminus, whole?_append hwhole hwdigits hpoint]
  dsimp only
  rw [fraction?_append hfdigits (fun c hc => (hfraction c hc).1) fun c hc => (hfraction c hc).2]
  dsimp only
  rw [exponent?_append hexponent hene hedigits hrest]
  rfl

/-- No other token starts as a numeral does. -/
lemma token?_of_numeral? {n : Numeral} (h : numeral? cs = some (n, rest)) :
    token? cs = some (.number n, rest) := by
  unfold token?
  split
  case h_11 => rw [h]; rfl
  all_goals cases h

lemma token?_number {n : Numeral} (h : SpellsNumeral cs n) (hrest : Delimited rest) :
    token? (cs ++ rest) = some (.number n, rest) :=
  token?_of_numeral? (numeral?_append h hrest)

/-! ### Strings -/

lemma hexDigit?_eq {c : Char} {n : ℕ} (h : HexDigit c n) : hexDigit? c = some n := by
  have hlower : ∀ k : Fin 16, hexDigit? (Nat.digitChar k) = some k.val := by decide
  have hupper : ∀ k : Fin 16, hexDigit? (Nat.digitChar k).toUpper = some k.val := by decide
  cases h with
  | lower hn => exact hlower ⟨n, hn⟩
  | upper hn => exact hupper ⟨n, hn⟩

/-- A numeric escape is one piece. -/
lemma pieces?_code {digits : List Char} {code : ℕ} (h : SpellsCode digits code) (cs : List Char) :
    pieces? ('\\' :: 'u' :: (digits ++ cs)) =
      (pieces? cs).map fun p => (.ofCode code :: p.1, p.2) := by
  obtain ⟨ha, hb, hc, hd⟩ := h
  simp only [List.cons_append, List.nil_append]
  rw [pieces?, hex?, hexDigit?_eq ha, hexDigit?_eq hb, hexDigit?_eq hc, hexDigit?_eq hd]
  rfl

/-- No character is half of a surrogate pair. -/
lemma ofCode_toNat (c : Char) : Piece.ofCode c.toNat = .char c := by
  have hvalid : c.toNat < 0xD800 ∨ 0xDFFF < c.toNat ∧ c.toNat < 0x110000 := c.valid
  have hhalf : (isFirstHalf c.toNat || isSecondHalf c.toNat) = false := by
    simp only [isFirstHalf, isSecondHalf, Bool.or_eq_false_iff, Bool.and_eq_false_iff,
      decide_eq_false_iff_not]
    omega
  rw [Piece.ofCode, hhalf, Char.ofNat_toNat]
  rfl

/-- The two halves of a character that needs a surrogate pair make the character. -/
lemma join?_halves {c : Char} (hc : 0x10000 ≤ c.toNat) (ps : List Piece) :
    join? (.ofCode (0xD800 + (c.toNat - 0x10000) / 0x400) ::
      .ofCode (0xDC00 + (c.toNat - 0x10000) % 0x400) :: ps) = (join? ps).map (c :: ·) := by
  have hvalid : c.toNat < 0xD800 ∨ 0xDFFF < c.toNat ∧ c.toNat < 0x110000 := c.valid
  obtain ⟨n, hn⟩ := Nat.exists_eq_add_of_le hc
  have hfirst : isFirstHalf (0xD800 + n / 0x400) = true := by
    rw [isFirstHalf, Bool.and_eq_true, decide_eq_true_eq, decide_eq_true_eq]
    omega
  have hsecond : isSecondHalf (0xDC00 + n % 0x400) = true := by
    rw [isSecondHalf, Bool.and_eq_true, decide_eq_true_eq, decide_eq_true_eq]
    omega
  have hcode : 0x10000 + 0x400 * (0xD800 + n / 0x400 - 0xD800) +
      (0xDC00 + n % 0x400 - 0xDC00) = c.toNat := by omega
  rw [hn, Nat.add_sub_cancel_left, Piece.ofCode, Piece.ofCode, hfirst, hsecond, Bool.true_or,
    Bool.or_true, if_pos rfl, if_pos rfl, join?, hfirst, hsecond, hcode, Char.ofNat_toNat]
  rfl

lemma escaped?_eq {letter c : Char} (h : (letter, c) ∈ escapes) :
    letter ≠ 'u' ∧ escaped? letter = some c := by
  have hall : ∀ e ∈ escapes, e.1 ≠ 'u' ∧ escaped? e.1 = some e.2 := by decide
  exact hall _ h

lemma pieces?_escape {letter c : Char} (h : (letter, c) ∈ escapes) (cs : List Char) :
    pieces? ('\\' :: letter :: cs) = (pieces? cs).map fun p => (.char c :: p.1, p.2) := by
  obtain ⟨hletter, hescaped⟩ := escaped?_eq h
  rw [pieces?, hescaped]
  exact fun _ _ _ _ _ hu _ => hletter hu

/-- The pieces of a character, and what becomes of them. -/
lemma exists_pieces_of_spellsChar {letters : List Char} {c : Char} (h : SpellsChar letters c) :
    ∃ ps : List Piece,
      (∀ cs, pieces? (letters ++ cs) = (pieces? cs).map fun p => (ps ++ p.1, p.2)) ∧
        ∀ qs, join? (ps ++ qs) = (join? qs).map (c :: ·) := by
  cases h with
  | plain hcontrol hquote hslash =>
    refine ⟨[.char c], fun cs => ?_, fun qs => rfl⟩
    change pieces? (c :: cs) = _
    rw [pieces?, if_neg (not_lt.2 hcontrol)]
    · rfl
    · exact hquote
    · exact fun _ _ _ _ _ hc _ => hslash hc
    · exact fun _ _ hc _ => hslash hc
  | escape h => exact ⟨[.char c], pieces?_escape h, fun qs => rfl⟩
  | code h =>
    refine ⟨[.char c], fun cs => ?_, fun qs => rfl⟩
    rw [← ofCode_toNat c]
    exact pieces?_code h cs
  | @pair first second _ hc hfirst hsecond =>
    refine ⟨[.ofCode (0xD800 + (c.toNat - 0x10000) / 0x400),
      .ofCode (0xDC00 + (c.toNat - 0x10000) % 0x400)], fun cs => ?_, join?_halves hc⟩
    have hboth := pieces?_code hfirst ('\\' :: 'u' :: (second ++ cs))
    rw [pieces?_code hsecond, Option.map_map] at hboth
    simpa [Function.comp_def] using hboth

lemma exists_pieces {letters : List (List Char × Char)} (h : ∀ l ∈ letters, SpellsChar l.1 l.2)
    (rest : List Char) :
    ∃ ps, pieces? (letters.flatMap Prod.fst ++ '"' :: rest) = some (ps, rest) ∧
      join? ps = some (letters.map Prod.snd) := by
  induction letters with
  | nil => exact ⟨[], by simp [pieces?], rfl⟩
  | cons l letters ih =>
    rw [List.forall_mem_cons] at h
    obtain ⟨ps, hpieces, hjoin⟩ := exists_pieces_of_spellsChar h.1
    obtain ⟨qs, hrest, hqs⟩ := ih h.2
    refine ⟨ps ++ qs, ?_, ?_⟩
    · rw [List.flatMap_cons, List.append_assoc, hpieces, hrest]
      rfl
    · rw [hjoin, hqs]
      rfl

/-- **A string is read.** -/
theorem token?_string {letters : List (List Char × Char)} (h : ∀ l ∈ letters, SpellsChar l.1 l.2)
    (rest : List Char) :
    token? ('"' :: (letters.flatMap Prod.fst ++ '"' :: rest)) =
      some (.string (some (String.ofList (letters.map Prod.snd))), rest) := by
  obtain ⟨ps, hpieces, hjoin⟩ := exists_pieces h rest
  rw [token?, hpieces]
  change some (Token.string ((join? ps).map String.ofList), rest) = _
  rw [hjoin]
  rfl

end LikelihoodRatio.Json
