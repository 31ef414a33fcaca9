/-
# The texts of values

Which texts spell a value (`Spells`) is said here without a reader: blanks may stand around every
value and every name, a numeral may have its exponent in several forms, and a character of a string
may be written as itself, by an escape, or by one or two codes.  The fields of an object may come in
any order, and a name may occur again.  A string that stands for no text is spelled by nothing.

The text that is written for a value is one of its spellings (`spells_chars`), if its numerals can
be read and its strings stand for texts (`Writable`).
-/
import LikelihoodRatio.Proofs.Json.Numeral

namespace LikelihoodRatio.Json

/-! ### Blanks and numerals -/

/-- A text of blanks only. -/
def Blank (cs : List Char) : Prop := ∀ c ∈ cs, isBlank c = true

lemma blank_nil : Blank [] := nofun

/-- The sign of an exponent; a plus sign may be missing. -/
inductive SpellsSign : List Char → Bool → Prop where
  | minus : SpellsSign ['-'] true
  | plus : SpellsSign ['+'] false
  | none : SpellsSign [] false

/-- An exponent, if there is one, after either letter. -/
inductive SpellsExponent : List Char → Option NumeralExponent → Prop where
  | none : SpellsExponent [] none
  | some {letter : Char} {sign digits : List Char} {negative : Bool}
      (hletter : letter = 'e' ∨ letter = 'E') (hsign : SpellsSign sign negative) :
      SpellsExponent (letter :: (sign ++ digits)) (some ⟨negative, digits⟩)

/-- A numeral up to its exponent. -/
def mantissa (n : Numeral) : List Char :=
  (if n.negative then ['-'] else []) ++ n.whole
    ++ (if n.fraction = [] then [] else '.' :: n.fraction)

inductive SpellsNumeral : List Char → Numeral → Prop where
  | mk {n : Numeral} {exponent : List Char} (h : n.WellFormed)
      (hexponent : SpellsExponent exponent n.exponent) : SpellsNumeral (mantissa n ++ exponent) n

/-! ### Characters of a string -/

/-- A hexadecimal digit, in either case. -/
inductive HexDigit : Char → ℕ → Prop where
  | lower {n : ℕ} (h : n < 16) : HexDigit n.digitChar n
  | upper {n : ℕ} (h : n < 16) : HexDigit n.digitChar.toUpper n

/-- A code of four hexadecimal digits. -/
inductive SpellsCode : List Char → ℕ → Prop where
  | mk {a b c d : Char} {w x y z : ℕ} (ha : HexDigit a w) (hb : HexDigit b x) (hc : HexDigit c y)
      (hd : HexDigit d z) : SpellsCode [a, b, c, d] (16 * (16 * (16 * w + x) + y) + z)

/-- The characters that may follow a backslash, and what they stand for. -/
def escapes : List (Char × Char) :=
  [('"', '"'), ('\\', '\\'), ('/', '/'), ('b', '\x08'), ('f', '\x0c'), ('n', '\n'), ('r', '\r'),
    ('t', '\t')]

/-- A character of a string. -/
inductive SpellsChar : List Char → Char → Prop where
  | plain {c : Char} (hcontrol : ' ' ≤ c) (hquote : c ≠ '"') (hslash : c ≠ '\\') :
      SpellsChar [c] c
  | escape {letter c : Char} (h : (letter, c) ∈ escapes) : SpellsChar ['\\', letter] c
  | code {digits : List Char} {c : Char} (h : SpellsCode digits c.toNat) :
      SpellsChar ('\\' :: 'u' :: digits) c
  /-- A character that needs more than four digits, as a surrogate pair. -/
  | pair {first second : List Char} {c : Char} (hc : 0x10000 ≤ c.toNat)
      (hfirst : SpellsCode first (0xD800 + (c.toNat - 0x10000) / 0x400))
      (hsecond : SpellsCode second (0xDC00 + (c.toNat - 0x10000) % 0x400)) :
      SpellsChar ('\\' :: 'u' :: (first ++ '\\' :: 'u' :: second)) c

/-! ### Values -/

/-- Parts with commas between them. -/
def commaSeparated (parts : List (List Char)) : List Char := [','].intercalate parts

lemma commaSeparated_nil : commaSeparated [] = [] := List.intercalate_nil

lemma commaSeparated_singleton (part : List Char) : commaSeparated [part] = part :=
  List.intercalate_singleton

lemma commaSeparated_cons_cons (part next : List Char) (parts : List (List Char)) :
    commaSeparated (part :: next :: parts) = part ++ ',' :: commaSeparated (next :: parts) := by
  rw [commaSeparated, List.intercalate_cons_cons, List.append_assoc]
  rfl

/-- A field of an object, with the texts of its name and of its value. -/
structure SpelledField where
  nameText : List Char
  name : String
  valueText : List Char
  value : Json

/-- The text of a field. -/
def SpelledField.text (f : SpelledField) : List Char := f.nameText ++ ':' :: f.valueText

/-- A text spells a value. -/
inductive Spells : List Char → Json → Prop where
  | null : Spells ['n', 'u', 'l', 'l'] .null
  | true : Spells ['t', 'r', 'u', 'e'] (.bool true)
  | false : Spells ['f', 'a', 'l', 's', 'e'] (.bool false)
  | number {cs : List Char} {n : Numeral} (h : SpellsNumeral cs n) : Spells cs (.number n)
  | string {letters : List (List Char × Char)} (h : ∀ l ∈ letters, SpellsChar l.1 l.2) :
      Spells ('"' :: (letters.flatMap Prod.fst ++ ['"']))
        (.string (some (String.ofList (letters.map Prod.snd))))
  | emptyArray {blanks : List Char} (h : Blank blanks) :
      Spells ('[' :: (blanks ++ [']'])) (.array [])
  | array {items : List (List Char × Json)} (hne : items ≠ []) (h : ∀ i ∈ items, Spells i.1 i.2) :
      Spells ('[' :: (commaSeparated (items.map Prod.fst) ++ [']']))
        (.array (items.map Prod.snd))
  | emptyObject {blanks : List Char} (h : Blank blanks) :
      Spells ('{' :: (blanks ++ ['}'])) (ofFields [])
  | object {fields : List SpelledField} (hne : fields ≠ [])
      (hname : ∀ f ∈ fields, Spells f.nameText (.string (some f.name)))
      (hvalue : ∀ f ∈ fields, Spells f.valueText f.value) :
      Spells ('{' :: (commaSeparated (fields.map SpelledField.text) ++ ['}']))
        (ofFields (fields.map fun f => (f.name, f.value)))
  | spaced {before cs after : List Char} {j : Json} (hbefore : Blank before) (hafter : Blank after)
      (h : Spells cs j) : Spells (before ++ cs ++ after) j

/-! ### Written values -/

/-- A value that can be written: its numerals can be read, and its strings and names are texts. -/
inductive Writable : Json → Prop where
  | null : Writable .null
  | bool (value : Bool) : Writable (.bool value)
  | number {n : Numeral} (h : n.WellFormed) : Writable (.number n)
  | string (text : String) : Writable (.string (some text))
  | array {items : List Json} (h : ∀ v ∈ items, Writable v) : Writable (.array items)
  | object {fields : List (Option String × Json)} (hnames : ∀ f ∈ fields, f.1.isSome = true)
      (h : ∀ f ∈ fields, Writable f.2) : Writable (.object fields)

lemma spellsNumeral_chars {n : Numeral} (h : n.WellFormed) : SpellsNumeral n.chars n := by
  refine .mk h ?_
  cases n.exponent with
  | none => exact .none
  | some e =>
    obtain ⟨negative, digits⟩ := e
    cases negative with
    | true => exact .some (.inl rfl) .minus
    | false => exact .some (.inl rfl) .plus

/-- A character below the blank has a code that starts with two zeros. -/
lemma spellsCode_control {n : ℕ} (hn : n < 32) :
    SpellsCode ['0', '0', (n / 16).digitChar, (n % 16).digitChar] n := by
  have hzero : HexDigit '0' 0 := .lower (n := 0) (by norm_num)
  have hhigh : HexDigit (n / 16).digitChar (n / 16) := .lower (by omega)
  have hlow : HexDigit (n % 16).digitChar (n % 16) := .lower (by omega)
  have hcode : 16 * (16 * (16 * 0 + 0) + n / 16) + n % 16 = n := by omega
  have hspells := SpellsCode.mk hzero hzero hhigh hlow
  rwa [hcode] at hspells

lemma spellsChar_quotedChar (c : Char) : SpellsChar (quotedChar c) c := by
  rw [quotedChar]
  split_ifs with hquote hslash hcontrol
  · subst hquote
    exact .escape (by decide)
  · subst hslash
    exact .escape (by decide)
  · exact .code (spellsCode_control hcontrol)
  · exact .plain (not_lt.1 hcontrol) hquote hslash

lemma spells_quoted (text : String) : Spells (quoted (some text)) (.string (some text)) := by
  have hletters : ∀ l ∈ text.toList.map fun c => (quotedChar c, c), SpellsChar l.1 l.2 :=
    List.forall_mem_map.2 fun c _ => spellsChar_quotedChar c
  have hspells := Spells.string hletters
  rw [List.flatMap_map, List.map_map] at hspells
  simpa [quoted, Function.comp_def] using hspells

lemma itemChars_eq (items : List Json) : itemChars items = commaSeparated (items.map chars) := by
  induction items with
  | nil => rw [itemChars, List.map_nil, commaSeparated_nil]
  | cons v items ih =>
    cases items with
    | nil => rw [itemChars, List.map_cons, List.map_nil, commaSeparated_singleton]
    | cons w items =>
      rw [itemChars, ih]
      · exact (commaSeparated_cons_cons _ _ _).symm
      · exact List.cons_ne_nil w items

/-- A field as it is written. -/
def writtenField (f : Option String × Json) : SpelledField where
  nameText := quoted f.1
  name := f.1.getD ""
  valueText := f.2.chars
  value := f.2

lemma fieldChars_eq (fields : List (Option String × Json)) :
    fieldChars fields = commaSeparated (fields.map fun f => (writtenField f).text) := by
  induction fields with
  | nil => rw [fieldChars, List.map_nil, commaSeparated_nil]
  | cons f fields ih =>
    cases fields with
    | nil =>
      rw [fieldChars, List.map_cons, List.map_nil, commaSeparated_singleton]
      rfl
    | cons g fields =>
      rw [fieldChars, ih]
      · refine Eq.trans ?_ (commaSeparated_cons_cons _ _ _).symm
        exact (List.append_assoc _ (':' :: chars f.2) _).symm
      · exact List.cons_ne_nil g fields

/-- **The text that is written for a value spells it.** -/
theorem spells_chars {j : Json} (h : Writable j) : Spells j.chars j := by
  induction h with
  | null => exact .null
  | bool value =>
    cases value with
    | true => exact .true
    | false => exact .false
  | number h => exact .number (spellsNumeral_chars h)
  | string text => exact spells_quoted text
  | @array items h ih =>
    rw [chars, itemChars_eq]
    by_cases hnil : items = []
    · subst hnil
      exact .emptyArray blank_nil
    · have hitems : ∀ i ∈ items.map fun v => (v.chars, v), Spells i.1 i.2 :=
        List.forall_mem_map.2 ih
      have hspells := Spells.array (by simpa using hnil) hitems
      simpa [Function.comp_def] using hspells
  | @object fields hnames h ih =>
    rw [chars, fieldChars_eq]
    by_cases hnil : fields = []
    · subst hnil
      exact .emptyObject blank_nil
    · have hname : ∀ f ∈ fields, some (f.1.getD "") = f.1 := by
        intro f hf
        obtain ⟨text, htext⟩ := Option.isSome_iff_exists.1 (hnames f hf)
        rw [htext, Option.getD_some]
      have hfields : ofFields ((fields.map writtenField).map fun f => (f.name, f.value)) =
          .object fields := by
        rw [ofFields, List.map_map, List.map_map]
        conv_rhs => rw [← List.map_id fields]
        exact congrArg Json.object (List.map_congr_left fun f hf => Prod.ext (hname f hf) rfl)
      have hnames' : ∀ f ∈ fields.map writtenField, Spells f.nameText (.string (some f.name)) := by
        refine List.forall_mem_map.2 fun f hf => ?_
        change Spells (quoted f.1) _
        rw [← hname f hf]
        exact spells_quoted _
      have hspells := Spells.object (by simpa using hnil) hnames' (List.forall_mem_map.2 ih)
      rw [hfields, List.map_map] at hspells
      exact hspells

lemma spells_text {j : Json} (h : Writable j) : Spells j.text.toList j := by
  rw [text, String.toList_ofList]
  exact spells_chars h

end LikelihoodRatio.Json
