import SourceReport.Diagnostic.Basic

/-!
# Validations

The outcome of a check that goes on after problems. It holds a value, or the fatal diagnostic that
stopped the check, and in both cases the diagnostics collected on the way.

A running check passes a list of diagnostics along: `validate` and `recover` move what an outcome
has collected to the end of that list and answer the new outcome together with it.
-/

namespace SourceReport

/-- The outcome of a check. -/
structure Validation (α : Type) where
  outcome : Except Diagnostic α
  collected : List Diagnostic

namespace Validation

variable {α β ε : Type}

/-- A value. -/
def success (value : α) (collected : List Diagnostic) : Validation α := ⟨.ok value, collected⟩

/-- A fatal diagnostic. -/
def failure (fatal : Diagnostic) (collected : List Diagnostic) : Validation α :=
  ⟨.error fatal, collected⟩

/-- The outcome of a computation. Of its errors, those with a message become fatal diagnostics. -/
def attempt (message? : ε → Option Text) (x : Except ε α) : Except ε (Validation α) :=
  match x with
  | .ok value => .ok (success value [])
  | .error e =>
    match message? e with
    | some message => .ok (failure { level := .error, message := message } [])
    | none => .error e

/-- Whether there is a value. -/
def isSuccess (v : Validation α) : Bool :=
  match v.outcome with
  | .ok _ => true
  | .error _ => false

/-- Whether there is a value and nothing was collected. -/
def isClean (v : Validation α) : Bool := v.isSuccess && v.collected.isEmpty

/-- The fatal diagnostic. -/
def fatal? (v : Validation α) : Option Diagnostic :=
  match v.outcome with
  | .ok _ => none
  | .error d => some d

/-- The value. -/
def value? (v : Validation α) : Option α := v.outcome.toOption

/-- What was collected, then the fatal diagnostic. -/
def allDiagnostics (v : Validation α) : List Diagnostic := v.collected ++ v.fatal?.toList

/-- What is said of a value that is not there. -/
def refusal (fatal : Diagnostic) : Text :=
  if fatal.message.isEmpty then fatal.levelName else fatal.message

/-- The value, or another one in place of a failure. -/
def valueOr (v : Validation α) (default : α) : α := v.value?.getD default

/-- Applies a function to the value. -/
def map (f : α → β) (v : Validation α) : Validation β := ⟨v.outcome.map f, v.collected⟩

/-- Moves what was collected to the end of a running list. -/
def takeDiagnostics (v : Validation α) (errors : List Diagnostic) :
    Validation α × List Diagnostic :=
  (⟨v.outcome, []⟩, errors ++ v.collected)

/-- Adds the outcome to a running check. A failure carries a copy of the running list on. -/
def validate (v : Validation α) (errors : List Diagnostic) : Validation α × List Diagnostic :=
  let errors := errors ++ v.collected
  match v.outcome with
  | .ok value => (success value [], errors)
  | .error fatal => (failure fatal errors, errors)

/-- Adds the outcome to a running check, which goes on with another value after a failure. -/
def recover (v : Validation α) (errors : List Diagnostic) (default : α) :
    Validation α × List Diagnostic :=
  let errors := errors ++ v.collected
  match v.outcome with
  | .ok value => (success value [], errors)
  | .error fatal => (success default [], errors ++ [fatal])

end Validation

end SourceReport
