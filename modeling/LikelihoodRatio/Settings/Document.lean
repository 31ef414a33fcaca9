/-
# Settings as documents

Settings are kept as a JSON record.  Each of its parts may be missing, and a value to take instead
is given here for each.  A document is stored at a place, which may be missing as well.
-/
import LikelihoodRatio.Json.Reader
import LikelihoodRatio.Json.Writer
import LikelihoodRatio.Settings.Basic

namespace LikelihoodRatio

/-- The hypothesis that a document names: by a string, or by an object with nothing under that
name. -/
def Hypothesis.ofJson? : Json → Option Hypothesis
  | .string (some text) => ofName? text
  | .object [(some text, .null)] => ofName? text
  | _ => none

namespace Settings

/-- The names of the parts of settings, in their order. -/
def parts : List String := ["alpha", "hypothesis", "parallel"]

/-! ### Missing parts -/

def alphaIfMissing : Float := 0.05

def hypothesisIfMissing : Hypothesis := .simple

def parallelIfMissing : Bool := false

/-! ### Reading and writing -/

def toJson (s : Settings) : Json :=
  .ofFields (parts.zip [.ofFloat s.alpha, .ofString s.hypothesis.name, .bool s.parallel])

/-- The settings that a document holds. -/
def ofJson? (document : Json) : Option Settings := do
  match ← document.record? parts with
  | [alpha, hypothesis, parallel] =>
    return {
      alpha := ← Json.orDefault alphaIfMissing Json.float? alpha
      hypothesis := ← Json.orDefault hypothesisIfMissing Hypothesis.ofJson? hypothesis
      parallel := ← Json.orDefault parallelIfMissing Json.bool? parallel }
  | _ => none

/-- The text of the document of settings. -/
def text (s : Settings) : String := s.toJson.text

/-- The settings that a text holds. -/
def ofText (text : String) : Except (Error Float) Settings :=
  match (Json.ofText? text).bind ofJson? with
  | some s => .ok s
  | none => .error .unreadable

end Settings

/-- What stands at the place of a document. -/
inductive Place where
  /-- There is no such place. -/
  | missing
  /-- The place is empty. -/
  | vacant
  /-- A text is stored. -/
  | holding (text : String)
deriving DecidableEq, Repr

namespace Place

/-- Stores a text, in place of what was there. -/
def store (text : String) : Place → Except (Error Float) Place
  | .missing => .error .unwritable
  | .vacant | .holding _ => .ok (.holding text)

/-- The text that is stored. -/
def fetch : Place → Except (Error Float) String
  | .missing | .vacant => .error .unreadable
  | .holding text => .ok text

end Place

namespace Settings

def save (s : Settings) (place : Place) : Except (Error Float) Place := place.store s.text

/-- The settings that are stored at a place of a given name. -/
def load (name : String) (place : Place) : Logged Settings := do
  Logged.enter (.loading name)
  ofText (← place.fetch)

end Settings

end LikelihoodRatio
