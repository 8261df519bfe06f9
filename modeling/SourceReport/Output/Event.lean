import SourceReport.Report.Basic

/-!
# Events

A report is written as a sequence of events: a style is set, a text is written, the style is reset.
Every row ends with a newline in no style. Styles are set only if the settings ask for color, and
only for runs that have a style which changes anything.
-/

namespace SourceReport

/-- What a report tells the output. -/
inductive Event where
  /-- The following texts have a style. -/
  | style (s : Style)
  | text (t : Text)
  /-- The following texts have no style. -/
  | reset
deriving DecidableEq

namespace Run

/-- The events of a run. -/
def events (color : Bool) (r : Run) : List Event :=
  match r.style.filter fun s => color && !s.isPlain with
  | some s => [.style s, .text r.text, .reset]
  | none => [.text r.text]

end Run

/-- The events of a row. -/
def Row.events (color : Bool) (r : Row) : List Event :=
  r.printed.flatMap (Run.events color) ++ [.text "\n"]

/-- The events of a report. -/
def Report.events (color : Bool) (r : Report) : List Event := r.rows.flatMap (Row.events color)

end SourceReport
