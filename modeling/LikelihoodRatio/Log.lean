/-
# The log

Decisions leave a trace for the reader of a log.  The entries are data that an operation returns
beside what it comes to.  An operation that fails returns the entries that it has made by then.
-/
import LikelihoodRatio.Decimal.Places
import LikelihoodRatio.Error

namespace LikelihoodRatio

/-- How much an entry matters. -/
inductive Severity where
  | debug
  | info
  | warn
deriving DecidableEq, Repr

/-- An entry of the log. -/
inductive LogEntry where
  /-- A statistic was compared with a significance level. -/
  | decision (statistic : Float) (degreesOfFreedom : Nat) (pValue level : Float) (reject : Bool)
  /-- The fit of counts to a distribution was evaluated under the hypothesis of a given name. -/
  | goodnessOfFit (hypothesis : String) (counts : List Int) (pValue : Float)
  /-- A table was left out of a screening. -/
  | skipped (index : Nat) (error : Error Float)
  /-- A screening is complete. -/
  | screened (significant tables : Nat) (level : Float) (skipped : Nat)
  /-- Settings are about to be loaded from a place of a given name. -/
  | loading (place : String)
deriving DecidableEq, Repr

/-- What an operation comes to, and the entries that it makes on the way, in their order. -/
structure Logged (β : Type) where
  result : Except (Error Float) β
  log : List LogEntry

namespace Logged

variable {β γ : Type}

/-- What makes no entry. -/
def silent (result : Except (Error Float) β) : Logged β := ⟨result, []⟩

/-- Makes an entry. -/
def enter (entry : LogEntry) : Logged Unit := ⟨.ok (), [entry]⟩

/-- An operation and what follows its result.  If it fails, nothing follows, and its entries
stay. -/
protected def bind (x : Logged β) (f : β → Logged γ) : Logged γ :=
  match x.result with
  | .ok b =>
    let y := f b
    ⟨y.result, x.log ++ y.log⟩
  | .error e => ⟨.error e, x.log⟩

instance monadLogged : Monad Logged where
  pure b := silent (.ok b)
  bind := Logged.bind

instance monadLiftLogged : MonadLift (Except (Error Float)) Logged := ⟨silent⟩

variable {x : Except (Error Float) β} (f : β → Logged γ)

/-- The entries of a step stand before those of what comes after it. -/
theorem bind_of_ok {y : Logged β} {b : β} (h : y.result = .ok b) :
    y >>= f = ⟨(f b).result, y.log ++ (f b).log⟩ := by
  cases y with
  | mk result log =>
    cases h
    rfl

/-- A step without entries that has a result is followed by what comes after it. -/
theorem lift_bind_of_ok {b : β} (h : x = .ok b) : liftM x >>= f = f b := by
  rw [h]
  rfl

/-- A step without entries that fails is all there is. -/
theorem lift_bind_of_error {e : Error Float} (h : x = .error e) :
    liftM x >>= f = silent (.error e) := by
  rw [h]
  rfl

@[simp]
theorem result_lift (x : Except (Error Float) β) : (liftM x : Logged β).result = x := rfl

@[simp]
theorem result_pure (b : β) : (pure b : Logged β).result = pure b := rfl

@[simp]
theorem result_enter (entry : LogEntry) : (enter entry).result = pure () := rfl

/-- The log has no say in what an operation comes to. -/
@[simp]
theorem result_bind (y : Logged β) :
    (y >>= f).result = y.result >>= fun b => (f b).result := by
  cases y with
  | mk result log => cases result <;> rfl

end Logged

/-- Counts with commas between them. -/
def countsText (counts : List Int) : String := ", ".intercalate (counts.map toString)

def Severity.name : Severity → String
  | .debug => "DEBUG"
  | .info => "INFO"
  | .warn => "WARN"

namespace LogEntry

def severity : LogEntry → Severity
  | .decision .. | .goodnessOfFit .. | .loading _ => .debug
  | .skipped .. => .warn
  | .screened .. => .info

def text : LogEntry → String
  | .decision statistic df pValue level reject =>
    s!"G = {Decimal.fixed 6 statistic}, df = {df}, p = {Decimal.scientific 6 pValue}, "
      ++ s!"alpha = {Decimal.plain level}, reject = {reject}"
  | .goodnessOfFit hypothesis counts pValue =>
    s!"Goodness of fit ({hypothesis}) of [{countsText counts}]: "
      ++ s!"p = {Decimal.scientific 6 pValue}"
  | .skipped index error => s!"Skipping table {index}: {error.message}"
  | .screened significant tables level left =>
    s!"{significant} of {tables} tables significant at alpha = {Decimal.plain level}, "
      ++ s!"{left} skipped."
  | .loading place => s!"Loading configuration from {place}"

def line (entry : LogEntry) : String := s!"{entry.severity.name} {entry.text}"

end LogEntry

end LikelihoodRatio
