/-
# Writing JSON

JSON is written without blanks.  A number has the fewest digits that read back; it is written in
positional notation when the exponent of its first digit is from -5 to 15, and with an exponent
otherwise.
-/
import LikelihoodRatio.Decimal.Shortest
import LikelihoodRatio.Json.Basic

namespace LikelihoodRatio

namespace Json

/-- The exponents of the first digit for which a number is written in positional notation. -/
def isPositional (e : Int) : Bool := -5 ≤ e && e ≤ 15

/-- The numeral for a decimal whose first digit has the exponent `e`, in positional notation and
with at least one digit after the point. -/
def positionalNumeral (negative : Bool) (ds : List Char) (e : Int) : Numeral :=
  let before := (e + 1).toNat
  let padded := List.replicate (-e).toNat '0' ++ ds ++ List.replicate (before - ds.length) '0'
  let whole := if before = 0 then ['0'] else padded.take before
  let fraction := if before = 0 then padded.drop 1 else padded.drop before
  ⟨negative, whole, if fraction = [] then ['0'] else fraction, none⟩

/-- The numeral for a decimal whose first digit has the exponent `e`, with that exponent. -/
def exponentNumeral (negative : Bool) (ds : List Char) (e : Int) : Numeral :=
  ⟨negative, ds.take 1, ds.drop 1, some ⟨decide (e < 0), Decimal.digitChars e.natAbs⟩⟩

/-- The numeral for a decimal. -/
def numeralOfDecimal (negative : Bool) (d : Decimal) : Numeral :=
  let ds := Decimal.digitChars d.digits
  let e := d.exponent + ds.length - 1
  if isPositional e then positionalNumeral negative ds e else exponentNumeral negative ds e

/-- The numeral for a finite number. -/
def numeralOfFloat (x : Float) : Numeral :=
  numeralOfDecimal (Binary.isNegative x) (Decimal.shortest .toEven x)

/-- A number; JSON has none for an infinite or undefined one. -/
def ofFloat (x : Float) : Json :=
  if x.isFinite then .number (numeralOfFloat x) else .null

def ofNat (n : Nat) : Json := .number ⟨false, Decimal.digitChars n, [], none⟩

def ofString (s : String) : Json := .string (some s)

/-- A character within quotes. -/
def quotedChar (c : Char) : List Char :=
  if c = '"' then ['\\', '"']
  else if c = '\\' then ['\\', '\\']
  else if c < ' ' then
    ['\\', 'u', '0', '0', Nat.digitChar (c.toNat / 16), Nat.digitChar (c.toNat % 16)]
  else [c]

/-- A text within quotes.  A string that stands for no text is written as an empty one. -/
def quoted (text : Option String) : List Char :=
  '"' :: ((text.getD "").toList.flatMap quotedChar ++ ['"'])

mutual

def chars : Json → List Char
  | .null => ['n', 'u', 'l', 'l']
  | .bool true => ['t', 'r', 'u', 'e']
  | .bool false => ['f', 'a', 'l', 's', 'e']
  | .number n => n.chars
  | .string s => quoted s
  | .array items => '[' :: (itemChars items ++ [']'])
  | .object fields => '{' :: (fieldChars fields ++ ['}'])

/-- The items of an array, with commas between them. -/
def itemChars : List Json → List Char
  | [] => []
  | [v] => chars v
  | v :: items => chars v ++ ',' :: itemChars items

/-- The fields of an object, with commas between them. -/
def fieldChars : List (Option String × Json) → List Char
  | [] => []
  | [(name, v)] => quoted name ++ ':' :: chars v
  | (name, v) :: fields => quoted name ++ ':' :: (chars v ++ ',' :: fieldChars fields)

end

def text (j : Json) : String := String.ofList j.chars

/-- An object whose names are texts. -/
def ofFields (fields : List (String × Json)) : Json :=
  .object (fields.map fun field => (some field.1, field.2))

end Json

end LikelihoodRatio
