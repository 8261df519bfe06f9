import SourceReport.Layout.DisplayLine
import SourceReport.Layout.Placement
import SourceReport.Settings.Choice

/-!
# Cells of a label

The cells below a source line that underline a label of one line, and the one among them where the
connector to its message hangs. A label that covers no cell is widened to one.
-/

namespace SourceReport

/-- Where the connector to a message hangs. -/
inductive Attach where
  | start
  | middle
  | stop
deriving DecidableEq

instance : Choice Attach where
  title := "labelattach"
  all := [.start, .middle, .stop]
  key
    | .start => "start"
    | .middle => "middle"
    | .stop => "end"
  label
    | .start => "First column of the span"
    | .middle => "Middle column of the span"
    | .stop => "Last column of the span"
  aliases
    | .start => ["left"]
    | .middle => ["center", "centre"]
    | .stop => ["right"]

/-- The cell of a range where the connector hangs. -/
def Attach.cell (a : Attach) (start stop : Nat) : Nat :=
  match a with
  | .start => start
  | .middle => start + (stop - start) / 2
  | .stop => stop - 1

/-- The cells of a label of one line. -/
structure CellRange where
  /-- The first cell. -/
  start : Nat
  /-- The cell after the last one. -/
  stop : Nat
  /-- The cell where the connector hangs. -/
  attach : Nat
deriving DecidableEq

namespace CellRange

/-- Whether a cell is underlined. -/
def covers (r : CellRange) (cell : Int) : Bool := r.start ≤ cell ∧ cell < r.stop

/-- The cells of a label on its line. -/
def ofPlacement (line : DisplayLine) (attach : Attach) (p : Placement) : CellRange :=
  let start := line.columnOf p.startColumn
  let stop := if p.length = 0 then start else line.columnOf p.stopColumn
  let stop := max stop (start + 1)
  ⟨start, stop, attach.cell start stop⟩

end CellRange

end SourceReport
