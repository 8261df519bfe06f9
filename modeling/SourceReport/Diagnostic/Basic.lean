import SourceReport.Diagnostic.Label
import SourceReport.Diagnostic.Level

/-!
# Diagnostics

A diagnostic has a level, a message, labels in one or more sources and notes. It names sources by
their identities only.

* `Diagnostic.files` lists the sources it refers to, in the order in which a report shows them.
* `Tally.ofLevels` counts diagnostics by level.
-/

namespace SourceReport

/-- The place that a diagnostic is about, given apart from its labels. -/
structure Locator where
  file : SourceId
  /-- A byte offset; without it the report names the source alone. -/
  offset : Option Int := none
deriving DecidableEq

/-- A diagnostic. -/
structure Diagnostic where
  level : Level
  message : Text := []
  code : Option Text := none
  /-- In the order of their declaration. -/
  labels : List Label := []
  notes : List Text := []
  location : Option Locator := none
  /-- What a custom level is called. -/
  customName : Option Text := none
deriving DecidableEq

/-- The elements of a list without repetitions, each at its first place. -/
def distinct {α : Type} [DecidableEq α] (xs : List α) : List α :=
  xs.foldl (fun seen x => if x ∈ seen then seen else seen ++ [x]) []

namespace Diagnostic

/-- The word at the front of the report. -/
def levelName (d : Diagnostic) : Text :=
  match d.level, d.customName with
  | .custom, some (c :: name) => c :: name
  | level, _ => level.name

/-- The sources that the diagnostic refers to: that of its location, then those of its labels. -/
def files (d : Diagnostic) : List SourceId :=
  distinct ((d.location.map (·.file)).toList ++ d.labels.map (·.file))

end Diagnostic

/-- The number of diagnostics of each level. -/
structure Tally where
  count : Level → Nat

/-- Counts levels. -/
def Tally.ofLevels (levels : List Level) : Tally := ⟨fun l => levels.count l⟩

/-- The number of all diagnostics. -/
def Tally.total (t : Tally) : Nat := Level.all.foldl (fun total l => total + t.count l) 0

end SourceReport
