/-
# Reading JSON

A JSON text is read token by token.  What is still open, the arrays and objects around the place
that has been reached, is kept in a list, so that nesting has no limit.  Records, the values with
a fixed list of named parts, are then taken from the value that was read.
-/
import LikelihoodRatio.Json.Token

namespace LikelihoodRatio

namespace Json

/-- An array or object around the place that a reader has reached, with the parts that it has
read of it, the latest one first. -/
inductive Frame where
  | array (items : List Json)
  /-- An object, and the name of the field whose value is being read. -/
  | object (fields : List (Option String × Json)) (name : Option String)

/-- What a reader waits for. -/
inductive State where
  | value (around : List Frame)
  /-- The first item of an array, or its end. -/
  | firstItem (around : List Frame)
  /-- The first name of an object, or its end. -/
  | firstName (around : List Frame)
  /-- A further name of an object. -/
  | name (fields : List (Option String × Json)) (around : List Frame)
  /-- The colon after a name. -/
  | colon (fields : List (Option String × Json)) (name : Option String) (around : List Frame)
  /-- What may follow a complete value. -/
  | complete (value : Json) (around : List Frame)

/-- Starts a value with its first token. -/
def State.start? (around : List Frame) : Token → Option State
  | .null => some (.complete .null around)
  | .bool b => some (.complete (.bool b) around)
  | .number n => some (.complete (.number n) around)
  | .string s => some (.complete (.string s) around)
  | .leftBracket => some (.firstItem around)
  | .leftBrace => some (.firstName around)
  | _ => none

/-- Reads one token. -/
def State.step? : State → Token → Option State
  | .value around, t => start? around t
  | .firstItem around, .rightBracket => some (.complete (.array []) around)
  | .firstItem around, t => start? (.array [] :: around) t
  | .firstName around, .rightBrace => some (.complete (.object []) around)
  | .firstName around, .string k => some (.colon [] k around)
  | .name fields around, .string k => some (.colon fields k around)
  | .colon fields k around, .colon => some (.value (.object fields k :: around))
  | .complete v (.array items :: around), .comma => some (.value (.array (v :: items) :: around))
  | .complete v (.array items :: around), .rightBracket =>
    some (.complete (.array (v :: items).reverse) around)
  | .complete v (.object fields k :: around), .comma => some (.name ((k, v) :: fields) around)
  | .complete v (.object fields k :: around), .rightBrace =>
    some (.complete (.object ((k, v) :: fields).reverse) around)
  | _, _ => none

/-- The value that has been read, if nothing is open. -/
def State.result? : State → Option Json
  | .complete v [] => some v
  | _ => none

/-- The value that a list of tokens spells. -/
def ofTokens? (ts : List Token) : Option Json :=
  (ts.foldlM State.step? (.value [])).bind State.result?

/-- The value that a text spells. -/
def ofText? (text : String) : Option Json := (tokens text.toList).bind ofTokens?

/-! ## Parts of a value -/

/-- The texts that the names of fields stand for, if each stands for one. -/
def namedFields? (fields : List (Option String × Json)) : Option (List (String × Json)) :=
  fields.mapM fun field => field.1.map (·, field.2)

/-- The value of the field called `name`: absent, or present once. -/
def fieldOf? (fields : List (String × Json)) (name : String) : Option (Option Json) :=
  match fields.filter (·.1 == name) with
  | [] => some none
  | [field] => some (some field.2)
  | _ => none

/-- The parts of a record, in the order of `names`.  An object gives them by name, in any order,
each at most once and with other fields ignored.  An array gives the first ones in order. -/
def record? (names : List String) : Json → Option (List (Option Json))
  | .object fields => (namedFields? fields).bind fun fields => names.mapM (fieldOf? fields)
  | .array items =>
    if items.length ≤ names.length then
      some (items.map some ++ List.replicate (names.length - items.length) none)
    else none
  | _ => none

/-- A binary64 number: any numeral that is not beyond the largest one. -/
def float? : Json → Option Float
  | .number n => if n.toFloat.isFinite then some n.toFloat else none
  | _ => none

/-- A natural number that 64 bits can hold. -/
def size? : Json → Option Nat
  | .number n => n.toNat?.filter (· < Nat.pow 2 64)
  | _ => none

def bool? : Json → Option Bool
  | .bool b => some b
  | _ => none

/-- A part that may be missing. -/
def orDefault {α : Type} (default : α) (read? : Json → Option α) : Option Json → Option α
  | none => some default
  | some j => read? j

end Json

end LikelihoodRatio
