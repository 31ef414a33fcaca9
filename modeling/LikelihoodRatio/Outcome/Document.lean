/-
# Outcomes as documents

An outcome is kept as a JSON record of its three parts, all of which must be there.
-/
import LikelihoodRatio.Json.Reader
import LikelihoodRatio.Json.Writer
import LikelihoodRatio.Outcome.Basic

namespace LikelihoodRatio.Outcome

/-- The names of the parts of an outcome, in their order. -/
def parts : List String := ["statistic", "degrees_of_freedom", "p_value"]

def toJson (outcome : Outcome) : Json :=
  .ofFields (parts.zip
    [.ofFloat outcome.statistic, .ofNat outcome.degreesOfFreedom, .ofFloat outcome.pValue])

/-- The outcome that a document holds. -/
def ofJson? (document : Json) : Option Outcome := do
  match ← document.record? parts with
  | [some statistic, some df, some pValue] =>
    return ⟨← statistic.float?, ← df.size?, ← pValue.float?⟩
  | _ => none

/-- The text of the document of an outcome. -/
def text (outcome : Outcome) : String := outcome.toJson.text

/-- The outcome that a text holds. -/
def ofText (text : String) : Except (Error Float) Outcome :=
  match (Json.ofText? text).bind ofJson? with
  | some outcome => .ok outcome
  | none => .error .unreadable

end LikelihoodRatio.Outcome
