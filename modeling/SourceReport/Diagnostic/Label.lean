import SourceReport.Source.Span
import SourceReport.Style.Color

/-!
# Labels

A label points at a span of a source. Its message is printed below the source line, and its emphasis
decides how the span is underlined.

* `Label.weight` decides which of several labels owns a cell they share: the one of higher priority,
  then the one with the shorter span.
-/

namespace SourceReport

/-- Whether a label is what the diagnostic is about or context for it. -/
inductive Emphasis where
  | primary
  | secondary
deriving DecidableEq

/-- The word for an emphasis. -/
def Emphasis.name : Emphasis → Text
  | .primary => "primary"
  | .secondary => "secondary"

/-- The emphasis of a word. -/
def Emphasis.ofName? (t : Text) : Option Emphasis :=
  [.primary, .secondary].find? fun e : Emphasis => e.name = t

/-- A span with a message. -/
structure Label where
  span : Span
  message : Option Text := none
  color : Option Color := none
  /-- Messages of a lower order come first. -/
  order : Int := 0
  /-- No priority counts as 0. -/
  priority : Option Int := none
  emphasis : Emphasis := .primary
deriving DecidableEq

namespace Label

/-- The source that the label points into. -/
def file (l : Label) : SourceId := l.span.file

/-- The priority as a number. -/
def rank (l : Label) : Int := l.priority.getD 0

/-- What decides about shared cells: the greater pair wins. -/
def weight (l : Label) : Int × Int := (l.rank, -(l.span.length : Int))

end Label

end SourceReport
