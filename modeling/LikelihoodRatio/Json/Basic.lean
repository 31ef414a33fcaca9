/-
# JSON values

The values that a JSON text stands for.  A numeral is kept as it is written, since a reader may
ask whether it is a whole number.  A string is kept as the text that it stands for, if it stands
for one: a JSON string can hold one half of a surrogate pair without the other, and then it
stands for no text.
-/
import LikelihoodRatio.Decimal.Basic

namespace LikelihoodRatio

/-- The sign and the digits of the exponent of a numeral. -/
structure NumeralExponent where
  /-- Whether there is a minus sign. -/
  negative : Bool
  digits : List Char
deriving DecidableEq, Repr

/-- A number as it is written. -/
structure Numeral where
  /-- Whether there is a minus sign. -/
  negative : Bool
  /-- The digits before the point. -/
  whole : List Char
  /-- The digits after the point; none if there is no point. -/
  fraction : List Char
  /-- The exponent, if there is one. -/
  exponent : Option NumeralExponent
deriving DecidableEq, Repr

inductive Json where
  | null
  | bool (value : Bool)
  | number (value : Numeral)
  /-- A string, with the text that it stands for. -/
  | string (text : Option String)
  | array (items : List Json)
  /-- An object, with its fields in the order of the text. -/
  | object (fields : List (Option String × Json))
deriving Inhabited, Repr

/-- The whole number that a list of decimal digits stands for. -/
def valueOfDigits (ds : List Char) : Nat := ds.foldl (fun n d => 10 * n + (d.toNat - '0'.toNat)) 0

namespace NumeralExponent

/-- The power of ten. -/
def value (e : NumeralExponent) : Int :=
  if e.negative then -(valueOfDigits e.digits : Int) else valueOfDigits e.digits

def chars (e : NumeralExponent) : List Char := 'e' :: (if e.negative then '-' else '+') :: e.digits

end NumeralExponent

namespace Numeral

/-- The number that a numeral stands for, without its sign. -/
def decimal (n : Numeral) : Decimal where
  digits := valueOfDigits (n.whole ++ n.fraction)
  exponent := ((n.exponent.map NumeralExponent.value).getD 0) - n.fraction.length

/-- The binary64 number nearest to a numeral. -/
def toFloat (n : Numeral) : Float :=
  if n.negative then -n.decimal.toFloat else n.decimal.toFloat

/-- The whole number that a numeral without fraction and exponent stands for. -/
def toInt? (n : Numeral) : Option Int :=
  if n.fraction = [] ∧ n.exponent = none then
    some (if n.negative then -(valueOfDigits n.whole : Int) else valueOfDigits n.whole)
  else none

/-- The natural number that a numeral without sign, fraction and exponent stands for.  A minus
sign makes even zero no natural number. -/
def toNat? (n : Numeral) : Option Nat :=
  if n.negative = false ∧ n.fraction = [] ∧ n.exponent = none then some (valueOfDigits n.whole)
  else none

def chars (n : Numeral) : List Char :=
  (if n.negative then ['-'] else []) ++ n.whole
    ++ (if n.fraction = [] then [] else '.' :: n.fraction)
    ++ (n.exponent.map NumeralExponent.chars).getD []

end Numeral

end LikelihoodRatio
