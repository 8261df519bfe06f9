import SourceReport.Layout.Order
import SourceReport.Report.Margin

/-!
# Underlines and connectors

The cells below a source line that belong to its labels of one line. A `Marks` value holds these
labels with the cells of each.

* `Marks.underline` draws the underlines. A cell that several labels cover belongs to the one that
  owns it; where a connector hangs there is a junction.
* `Marks.connectors` draws the row of a message: the connectors of the messages still to come hang
  down, and that of its own label turns off and runs to the text.
-/

namespace SourceReport

/-- Labels with their cells. -/
abbrev Marks := List (Placement × CellRange)

namespace Marks

variable (pen : Pen)

/-- The labels of a line with their cells. -/
def ofLabels (line : DisplayLine) (labels : List Placement) : Marks :=
  labels.map fun p => (p, .ofPlacement line pen.settings.attach p)

/-- The labels with messages in the order of these, with their cells. -/
def withMessages (marks : Marks) : Marks :=
  (Placement.messageOrder (marks.map (·.1))).filterMap fun p =>
    (marks.lookup p).map fun range => (p, range)

/-- The first label whose connector hangs at a cell. -/
def attachedAt? (marks : Marks) (cell : Nat) : Option Placement :=
  (marks.find? (·.2.attach = cell)).map (·.1)

/-- The label that owns a cell. -/
def ownerAt? (marks : Marks) (cell : Nat) : Option Placement :=
  Placement.owner? ((marks.filter (·.2.covers cell)).map (·.1))

/-- A cell of the row of underlines; `hung` are the labels with messages. -/
def underlineCell (marks hung : Marks) (cell : Nat) : Cell :=
  match hung.attachedAt? cell with
  | some p => pen.draw p pen.glyphs.junction
  | none =>
    match ownerAt? marks cell with
    | some p =>
      pen.draw p <| match p.label.emphasis with
        | .primary => pen.glyphs.primaryUnderline
        | .secondary => pen.glyphs.secondaryUnderline
    | none => .blank

/-- The number of cells up to the last one covered. -/
def width (marks : Marks) : Nat := (marks.map (·.2.stop)).foldl max 0

/-- The row of underlines. -/
def underline (marks : Marks) : List Cell :=
  (List.range marks.width).map (underlineCell pen marks marks.withMessages)

/-- The cell before which the messages start. -/
def messageColumn (marks : Marks) : Nat := (marks.map (·.2.attach)).foldl max 0 + 3

/-- The connectors of the messages still to come. -/
def hangingCell (later : Marks) (cell : Nat) : Cell :=
  match later.attachedAt? cell with
  | some p => pen.draw p pen.glyphs.vertical
  | none => .blank

/-- A cell of the first row of a message, for a label whose connector hangs at `own`. -/
def connectorCell (later : Marks) (p : Placement) (own cell : Nat) : Cell :=
  let crossed := (later.attachedAt? cell).isSome
  if cell = own then
    pen.draw p (if crossed then pen.glyphs.branch else pen.glyphs.bottomCorner)
  else if own < cell then pen.drawRun p crossed
  else hangingCell pen later cell

/-- The connectors in the first row of a message. -/
def connectors (column : Nat) (later : Marks) (p : Placement) (own : Nat) : List Cell :=
  (List.range column).map (connectorCell pen later p own)

/-- The connectors in the further rows of a message. -/
def hanging (column : Nat) (later : Marks) : List Cell :=
  (List.range column).map (hangingCell pen later)

end Marks

end SourceReport
