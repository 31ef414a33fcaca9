/-
# JSON tokens

A JSON text is a sequence of tokens with blanks between them.  The main functions are `tokens`,
which splits a text, and the three scanners below it, each of which takes one token off the front
of the text and leaves the rest.  A scanner always takes at least one character, which is why the
splitting ends.
-/
import LikelihoodRatio.Json.Basic

namespace LikelihoodRatio

namespace Json

/-- The smallest parts of a JSON text. -/
inductive Token where
  | leftBrace
  | rightBrace
  | leftBracket
  | rightBracket
  | comma
  | colon
  | null
  | bool (value : Bool)
  | number (value : Numeral)
  /-- A string, with the text that it stands for. -/
  | string (text : Option String)
deriving DecidableEq, Repr

/-- The four characters that may stand between tokens. -/
def isBlank (c : Char) : Bool := c == ' ' || c == '\t' || c == '\n' || c == '\r'

/-! ## Numerals -/

/-- Digits before the point: at least one, and no zero in front of another digit. -/
def isWhole : List Char → Bool
  | [] => false
  | ['0'] => true
  | d :: _ => d != '0'

/-- Takes the digits before the point. -/
def whole? (cs : List Char) : Option (List Char × List Char) :=
  let ds := cs.takeWhile Char.isDigit
  if isWhole ds then some (ds, cs.dropWhile Char.isDigit) else none

/-- Takes at least one digit. -/
def digits? (cs : List Char) : Option (List Char × List Char) :=
  let ds := cs.takeWhile Char.isDigit
  if ds = [] then none else some (ds, cs.dropWhile Char.isDigit)

/-- Takes a point and the digits after it, if there is a point. -/
def fraction? : List Char → Option (List Char × List Char)
  | '.' :: cs => digits? cs
  | cs => some ([], cs)

/-- Takes the sign of an exponent, if there is one. -/
def exponentSign : List Char → Bool × List Char
  | '-' :: cs => (true, cs)
  | '+' :: cs => (false, cs)
  | cs => (false, cs)

/-- Takes an exponent, if there is one. -/
def exponent? : List Char → Option (Option NumeralExponent × List Char)
  | [] => some (none, [])
  | c :: cs =>
    if c = 'e' ∨ c = 'E' then
      (digits? (exponentSign cs).2).map fun (ds, rest) => (some ⟨(exponentSign cs).1, ds⟩, rest)
    else some (none, c :: cs)

/-- Takes a minus sign, if there is one. -/
def minus : List Char → Bool × List Char
  | '-' :: cs => (true, cs)
  | cs => (false, cs)

def numeral? (cs : List Char) : Option (Numeral × List Char) :=
  match whole? (minus cs).2 with
  | none => none
  | some (whole, afterWhole) =>
    match fraction? afterWhole with
    | none => none
    | some (fraction, afterFraction) =>
      (exponent? afterFraction).map fun (exponent, rest) =>
        (⟨(minus cs).1, whole, fraction, exponent⟩, rest)

/-! ## Strings -/

/-- What one character or escape of a string stands for: a character, or a number that is half
of a surrogate pair. -/
inductive Piece where
  | char (c : Char)
  /-- Half of a surrogate pair. -/
  | half (code : Nat)
deriving DecidableEq, Repr

/-- The value of a hexadecimal digit. -/
def hexDigit? (c : Char) : Option Nat :=
  if c.isDigit then some (c.toNat - '0'.toNat)
  else if 'a' ≤ c ∧ c ≤ 'f' then some (c.toNat - 'a'.toNat + 10)
  else if 'A' ≤ c ∧ c ≤ 'F' then some (c.toNat - 'A'.toNat + 10)
  else none

/-- The number that four hexadecimal digits stand for. -/
def hex? (a b c d : Char) : Option Nat := do
  some (16 * (16 * (16 * (← hexDigit? a) + (← hexDigit? b)) + (← hexDigit? c)) + (← hexDigit? d))

/-- Whether a code is the first half of a surrogate pair. -/
def isFirstHalf (code : Nat) : Bool := 0xD800 ≤ code && code < 0xDC00

/-- Whether a code is the second half of a surrogate pair. -/
def isSecondHalf (code : Nat) : Bool := 0xDC00 ≤ code && code < 0xE000

/-- What a numeric escape stands for. -/
def Piece.ofCode (code : Nat) : Piece :=
  if isFirstHalf code || isSecondHalf code then .half code else .char (Char.ofNat code)

/-- What an escape of one character stands for. -/
def escaped? : Char → Option Char
  | '"' => some '"'
  | '\\' => some '\\'
  | '/' => some '/'
  | 'b' => some '\x08'
  | 'f' => some '\x0c'
  | 'n' => some '\n'
  | 'r' => some '\r'
  | 't' => some '\t'
  | _ => none

/-- Takes the rest of a string up to its closing quote. -/
def pieces? : List Char → Option (List Piece × List Char)
  | '"' :: cs => some ([], cs)
  | '\\' :: 'u' :: a :: b :: c :: d :: cs =>
    match hex? a b c d with
    | none => none
    | some code => (pieces? cs).map fun (ps, rest) => (.ofCode code :: ps, rest)
  | '\\' :: e :: cs =>
    match escaped? e with
    | none => none
    | some c => (pieces? cs).map fun (ps, rest) => (.char c :: ps, rest)
  | c :: cs =>
    if c < ' ' then none else (pieces? cs).map fun (ps, rest) => (.char c :: ps, rest)
  | [] => none

/-- The characters that pieces stand for.  Two halves in the right order make one character, and
any other half stands for none. -/
def join? : List Piece → Option (List Char)
  | [] => some []
  | .char c :: ps => (join? ps).map (c :: ·)
  | .half first :: .half second :: ps =>
    if isFirstHalf first && isSecondHalf second then
      (join? ps).map (Char.ofNat (0x10000 + 0x400 * (first - 0xD800) + (second - 0xDC00)) :: ·)
    else none
  | .half _ :: _ => none

/-! ## The text as a list of tokens -/

def token? : List Char → Option (Token × List Char)
  | '{' :: cs => some (.leftBrace, cs)
  | '}' :: cs => some (.rightBrace, cs)
  | '[' :: cs => some (.leftBracket, cs)
  | ']' :: cs => some (.rightBracket, cs)
  | ',' :: cs => some (.comma, cs)
  | ':' :: cs => some (.colon, cs)
  | 'n' :: 'u' :: 'l' :: 'l' :: cs => some (.null, cs)
  | 't' :: 'r' :: 'u' :: 'e' :: cs => some (.bool true, cs)
  | 'f' :: 'a' :: 'l' :: 's' :: 'e' :: cs => some (.bool false, cs)
  | '"' :: cs => (pieces? cs).map fun (ps, rest) => (.string ((join? ps).map String.ofList), rest)
  | cs => (numeral? cs).map fun (n, rest) => (.number n, rest)

theorem length_dropWhile_le (p : Char → Bool) (cs : List Char) :
    (cs.dropWhile p).length ≤ cs.length :=
  (List.dropWhile_suffix p).length_le

theorem length_digits? {cs ds rest : List Char} (h : digits? cs = some (ds, rest)) :
    rest.length ≤ cs.length := by
  simp only [digits?] at h
  split at h
  · simp at h
  · simp only [Option.some.injEq, Prod.mk.injEq] at h
    exact h.2 ▸ length_dropWhile_le _ _

theorem length_whole? {cs ds rest : List Char} (h : whole? cs = some (ds, rest)) :
    rest.length < cs.length := by
  simp only [whole?] at h
  split at h
  · next hw =>
    simp only [Option.some.injEq, Prod.mk.injEq] at h
    obtain ⟨-, rfl⟩ := h
    have hsplit :=
      congrArg List.length (List.takeWhile_append_dropWhile (p := Char.isDigit) (l := cs))
    have hpos : 0 < (cs.takeWhile Char.isDigit).length := by
      cases hd : cs.takeWhile Char.isDigit with
      | nil => simp [hd, isWhole] at hw
      | cons d ds => simp
    simp only [List.length_append] at hsplit
    omega
  · simp at h

theorem length_fraction? {cs ds rest : List Char} (h : fraction? cs = some (ds, rest)) :
    rest.length ≤ cs.length := by
  unfold fraction? at h
  split at h
  · have := length_digits? h
    simp only [List.length_cons]
    omega
  · simp only [Option.some.injEq, Prod.mk.injEq] at h
    simp [h.2]

theorem length_exponentSign (cs : List Char) : (exponentSign cs).2.length ≤ cs.length := by
  unfold exponentSign
  split <;> simp

theorem length_exponent? {cs rest : List Char} {e : Option NumeralExponent}
    (h : exponent? cs = some (e, rest)) : rest.length ≤ cs.length := by
  unfold exponent? at h
  split at h
  · simp only [Option.some.injEq, Prod.mk.injEq] at h
    simp [h.2.symm]
  · next c cs =>
    split at h
    · obtain ⟨⟨ds, r⟩, hd, hr⟩ := Option.map_eq_some_iff.1 h
      simp only [Prod.mk.injEq] at hr
      have h1 := length_digits? hd
      have h2 := length_exponentSign cs
      simp only [List.length_cons, ← hr.2]
      omega
    · simp only [Option.some.injEq, Prod.mk.injEq] at h
      simp [h.2.symm]

theorem length_minus (cs : List Char) : (minus cs).2.length ≤ cs.length := by
  unfold minus
  split <;> simp

theorem length_numeral? {cs rest : List Char} {n : Numeral} (h : numeral? cs = some (n, rest)) :
    rest.length < cs.length := by
  simp only [numeral?] at h
  have h0 := length_minus cs
  split at h
  · simp at h
  · next w r1 hw =>
    have h1 := length_whole? hw
    split at h
    · simp at h
    · next f r2 hf =>
      have h2 := length_fraction? hf
      obtain ⟨⟨e, r3⟩, he, hr⟩ := Option.map_eq_some_iff.1 h
      simp only [Prod.mk.injEq] at hr
      have h3 := length_exponent? he
      rw [← hr.2]
      omega

theorem length_pieces? {cs rest : List Char} {ps : List Piece} (h : pieces? cs = some (ps, rest)) :
    rest.length < cs.length := by
  fun_induction pieces? cs generalizing ps rest with
  | case1 cs =>
    simp only [Option.some.injEq, Prod.mk.injEq] at h
    simp [h.2]
  | case2 => simp at h
  | case3 a b c d cs code hx ih =>
    obtain ⟨⟨qs, r⟩, hq, hr⟩ := Option.map_eq_some_iff.1 h
    simp only [Prod.mk.injEq] at hr
    have := ih hq
    simp only [List.length_cons, ← hr.2]
    omega
  | case4 => simp at h
  | case5 e cs hne c hc ih =>
    obtain ⟨⟨qs, r⟩, hq, hr⟩ := Option.map_eq_some_iff.1 h
    simp only [Prod.mk.injEq] at hr
    have := ih hq
    simp only [List.length_cons, ← hr.2]
    omega
  | case6 => simp at h
  | case7 c cs h1 h2 h3 hc ih =>
    obtain ⟨⟨qs, r⟩, hq, hr⟩ := Option.map_eq_some_iff.1 h
    simp only [Prod.mk.injEq] at hr
    have := ih hq
    simp only [List.length_cons, ← hr.2]
    omega
  | case8 => simp at h

/-- Taking a token leaves less text. -/
theorem length_token? {cs rest : List Char} {t : Token} (h : token? cs = some (t, rest)) :
    rest.length < cs.length := by
  unfold token? at h
  split at h
  case h_10 cs =>
    obtain ⟨⟨ps, r⟩, hp, hr⟩ := Option.map_eq_some_iff.1 h
    simp only [Prod.mk.injEq] at hr
    have hlt := length_pieces? hp
    simp only [List.length_cons, ← hr.2]
    omega
  case h_11 =>
    obtain ⟨⟨n, r⟩, hn, hr⟩ := Option.map_eq_some_iff.1 h
    simp only [Prod.mk.injEq] at hr
    exact hr.2 ▸ length_numeral? hn
  all_goals
    simp only [Option.some.injEq, Prod.mk.injEq] at h
    simp only [List.length_cons, ← h.2]
    omega

/-- The tokens of a text, if it consists of tokens and blanks. -/
def tokens (cs : List Char) : Option (List Token) :=
  if cs.dropWhile isBlank = [] then some []
  else
    match _h : token? (cs.dropWhile isBlank) with
    | none => none
    | some (t, rest) => (tokens rest).map (t :: ·)
termination_by cs.length
decreasing_by
  exact Nat.lt_of_lt_of_le (length_token? _h) (length_dropWhile_le isBlank cs)

end Json

end LikelihoodRatio
