import SourceReport.Diagnostic.Basic
import SourceReport.Source.Basic

/-!
# Placements

Where a label stands in its source. Offsets that the source does not have are repaired: those past
the end become the end, those inside a character its start. Each repair is an issue of the report.

* `Placement.ofLabel` is the placement, `Placement.issues` the list of its repairs.
-/

namespace SourceReport

/-- What is wrong with a part of a diagnostic. -/
inductive Flaw where
  /-- An offset that the source does not have. -/
  | offset (e : LookupError)
  /-- The source is not registered. -/
  | unregistered
deriving DecidableEq

/-- A problem of a diagnostic that did not keep it from being shown. -/
structure Issue where
  file : SourceId
  /-- The index of the label; none for a problem of the diagnostic's location. -/
  label : Option Nat
  flaw : Flaw
deriving DecidableEq

/-- The issue names the label, the source and the problem. -/
def Issue.message (i : Issue) : Text :=
  let subject : Text := match i.label with
    | none => "diagnostic"
    | some n => "label " ++ Text.ofNat n
  let problem : Text := match i.flaw with
    | .offset e => e.message
    | .unregistered => "source not found in cache: " ++ i.file.display
  subject ++ " in " ++ i.file.display ++ ": " ++ problem

/-- What is wrong with an offset. -/
def Source.flaw? (s : Source) (offset : Nat) : Option LookupError :=
  match s.checkBoundary offset with
  | .ok () => none
  | .error e => some e

/-- A label in its source. -/
structure Placement where
  /-- The place of the label in its diagnostic. -/
  index : Nat
  label : Label
  /-- The first byte. -/
  start : Nat
  /-- The byte after the last one. -/
  stop : Nat
  /-- The index of the first line. -/
  firstLine : Nat
  /-- The index of the last line. -/
  lastLine : Nat
  /-- Bytes before the start in the first line. -/
  startColumn : Nat
  /-- Bytes before the end in the last line. -/
  stopColumn : Nat
deriving DecidableEq

namespace Placement

/-- Places a label in its source. -/
def ofLabel (s : Source) (index : Nat) (label : Label) : Placement :=
  let start := s.floorBoundary label.span.start
  let stop := max (s.floorBoundary label.span.stop) start
  let first := s.lineFrom start
  let last := s.lineFrom (max (stop - 1) start)
  { index := index
    label := label
    start := start
    stop := stop
    firstLine := first.index
    lastLine := last.index
    startColumn := start - first.offset
    stopColumn := stop - last.offset }

/-- The repairs of a label: first that of its start, then that of its end. -/
def issues (s : Source) (index : Nat) (label : Label) : List Issue :=
  [label.span.start, label.span.stop].filterMap fun offset =>
    (s.flaw? offset).map fun e => ⟨label.file, some index, .offset e⟩

/-- Whether the label goes on over the end of a line. -/
def isMultiline (p : Placement) : Bool := p.firstLine ≠ p.lastLine

/-- The message, unless it is empty. -/
def message? (p : Placement) : Option Text := p.label.message.filter fun m : Text => m ≠ []

/-- Whether there is a message to show. -/
def hasMessage (p : Placement) : Bool := p.message?.isSome

/-- The rows of the message. -/
def messageRows (p : Placement) : List Text := Text.rows (p.message?.getD [])

/-- The number of bytes. -/
def length (p : Placement) : Nat := p.stop - p.start

/-- Whether a line is one of those that the label touches. -/
def touches (p : Placement) (line : Nat) : Bool := p.firstLine ≤ line ∧ line ≤ p.lastLine

end Placement

end SourceReport
