import SourceReport.Style.Basic
import SourceReport.Text.Blank
import SourceReport.Text.Integer

/-!
# Rows

A report is a list of rows. A row has a gutter, a margin in which the lanes run, cells that draw
underlines and connectors, and text; its kind says what it is for.

* `Row.runs` is the row as runs of text, `Row.printed` what is written of it: without the blanks at
  its end (`trimRuns`) and with neighbours of one style joined (`joinRuns`).
-/

namespace SourceReport

/-- A run of text in one style. -/
structure Run where
  text : Text
  style : Option Style := none
deriving DecidableEq

/-- A cell that draws a character. -/
structure Cell where
  glyph : CodePoint
  style : Option Style := none
deriving DecidableEq

namespace Cell

/-- A cell that draws nothing. -/
def blank : Cell := ⟨' ', none⟩

/-- A cell as a run of its own. -/
def run (c : Cell) : Run := ⟨[c.glyph], c.style⟩

end Cell

/-- What a row is for. -/
inductive RowKind where
  /-- The empty row between two reports. -/
  | separator
  /-- A row of the message at the top. -/
  | header (part : Nat)
  /-- The name of a source. -/
  | locator
  /-- An empty row beside a snippet. -/
  | border
  /-- In place of a snippet of a source that is missing. -/
  | unavailable
  /-- A source line. -/
  | source (line : Nat)
  /-- In place of source lines that are not shown. -/
  | skipped (first count : Nat)
  /-- The underlines of a source line. -/
  | underline (line : Nat)
  /-- A row of the message of a label. -/
  | message (label part : Nat)
  /-- A row of a note. -/
  | note (index part : Nat)
deriving DecidableEq

/-- A row of a report. -/
structure Row where
  kind : RowKind
  gutter : List Run := []
  margin : List Cell := []
  cells : List Cell := []
  text : List Run := []
deriving DecidableEq

/-- The runs without the blanks at the end of the row. -/
def trimRuns : List Run → List Run
  | [] => []
  | r :: rest =>
    match trimRuns rest with
    | [] =>
      match r.text.trimEnd with
      | [] => []
      | t => [{ r with text := t }]
    | kept => r :: kept

/-- The runs with neighbours of one style joined. -/
def joinRuns : List Run → List Run
  | [] => []
  | r :: rest =>
    match joinRuns rest with
    | [] => [r]
    | next :: more =>
      if r.style = next.style then { r with text := r.text ++ next.text } :: more
      else r :: next :: more

/-- The text of runs. -/
def runsText (rs : List Run) : Text := rs.flatMap (·.text)

namespace Row

/-- The parts of a row in order. -/
def runs (r : Row) : List Run :=
  r.gutter ++ r.margin.map Cell.run ++ r.cells.map Cell.run ++ r.text

/-- What is written of a row. -/
def printed (r : Row) : List Run := joinRuns (trimRuns r.runs)

end Row

end SourceReport
