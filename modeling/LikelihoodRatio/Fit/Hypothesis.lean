/-
# Hypotheses about a distribution

The degrees of freedom of a goodness-of-fit test depend on where the expected distribution comes
from.
-/
import LikelihoodRatio.Check

namespace LikelihoodRatio

/-- How the expected distribution was obtained. -/
inductive Hypothesis where
  /-- It was fully given in advance. -/
  | simple
  /-- One of its parameters was estimated from the observed counts. -/
  | intrinsic
deriving DecidableEq, Repr, Inhabited

namespace Hypothesis

def name : Hypothesis → String
  | .simple => "Simple"
  | .intrinsic => "Intrinsic"

def all : List Hypothesis := [.simple, .intrinsic]

/-- The hypothesis of a given name. -/
def ofName? (text : String) : Option Hypothesis := all.find? (·.name == text)

variable {α : Type}

/-- The hypothesis of a given name, or what is wrong with the name. -/
def ofName (text : String) : Except (Error α) Hypothesis :=
  match ofName? text with
  | some h => .ok h
  | none => .error (.unknownName text "Hypothesis" (all.map name))

/-- The degrees of freedom that a hypothesis takes away. -/
def constraints : Hypothesis → Nat
  | .simple => 1
  | .intrinsic => 2

/-- The degrees of freedom for `k` categories, of which there must be enough to leave one. -/
def degreesOfFreedom (h : Hypothesis) (k : Nat) : Except (Error α) Nat := do
  Check.categories k (h.constraints + 1)
  subtract k h.constraints

end Hypothesis

end LikelihoodRatio
