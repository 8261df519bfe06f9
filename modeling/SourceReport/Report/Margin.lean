import SourceReport.Report.Row
import SourceReport.Report.Snippet

/-!
# Margins

The margin of a row shows the connectors of labels of several lines. Lane `k` takes cell `2 * k`,
and cell `2 * k + 1` lies between it and the next lane; the last two cells hold the arrow and a
blank.

* `sourceMargin` stands beside a source line: labels that start or end there turn off towards it.
* `betweenMargin` stands beside all other rows: connectors pass them.
* `messageMargin` stands beside the first row of a message: its connector ends there.

A horizontal run that meets the connector of another lane crosses it, or leaves a gap in it.
-/

namespace SourceReport

/-- What a snippet is drawn with. -/
structure Pen where
  settings : Settings
  /-- The styles of the labels by their indices. -/
  styles : List Style
  /-- The number of digits of the line numbers. -/
  digits : Nat

namespace Pen

/-- The characters in use. -/
def glyphs (pen : Pen) : Glyphs := pen.settings.charSet.glyphs

/-- The style of a label. -/
def styleOf (pen : Pen) (p : Placement) : Option Style := pen.styles[p.index]?

/-- The cell of a label that draws a character. -/
def draw (pen : Pen) (p : Placement) (glyph : CodePoint) : Cell := ⟨glyph, pen.styleOf p⟩

/-- The cell of a horizontal run of a label. -/
def drawRun (pen : Pen) (p : Placement) (crosses : Bool) : Cell :=
  pen.draw p <|
    if crosses && !pen.settings.crossGap then pen.glyphs.crossing else pen.glyphs.horizontal

end Pen

namespace Lanes

/-- The number of cells of a margin. -/
def marginSize (lanes : Lanes) : Nat := if lanes.count = 0 then 0 else 2 * lanes.count + 2

/-- The label among those with a property whose lane takes a cell. -/
def at? (lanes : Lanes) (holds : Placement → Bool) (cell : Nat) : Option Placement :=
  (lanes.find? fun e => 2 * e.2 = cell ∧ holds e.1).map (·.1)

/-- The label among those with a property whose lane is the last one before a cell. -/
def lastBefore? (lanes : Lanes) (holds : Placement → Bool) (cell : Nat) : Option Placement :=
  (lanes.foldl (fun best e =>
    if 2 * e.2 < cell ∧ holds e.1 ∧ best.all (·.2 < e.2) then some e else best) none).map
    (·.1)

end Lanes

/-- Whether a line lies between the ends of a label. -/
def Placement.passes (p : Placement) (line : Nat) : Bool := p.firstLine < line ∧ line < p.lastLine

/-- Whether a label starts or ends in a line. -/
def Placement.endsAt (p : Placement) (line : Nat) : Bool := line = p.firstLine ∨ line = p.lastLine

/-- Whether the connector of a label passes the rows below a line. The labels in `pending` end in
that line and their messages are still to come. -/
def Placement.isOpenBelow (p : Placement) (line : Nat) (pending : List Placement) : Bool :=
  (p.firstLine ≤ line ∧ line < p.lastLine) ∨ (p.lastLine = line ∧ p ∈ pending)

namespace Snippet

variable (pen : Pen) (s : Snippet)

/-- The character with which a label turns off at one of its ends. -/
def cornerGlyph (line : Nat) (p : Placement) : CodePoint :=
  if line = p.firstLine then pen.glyphs.topCorner
  else if p.hasMessage then pen.glyphs.branch
  else pen.glyphs.bottomCorner

/-- A cell of the margin beside a source line. -/
def sourceMarginCell (line cell : Nat) : Cell :=
  let size := s.lanes.marginSize
  let passing := s.lanes.at? (·.passes line) cell
  match s.lanes.at? (·.endsAt line) cell with
  | some p => pen.draw p (cornerGlyph pen line p)
  | none =>
    let runner :=
      if pen.settings.arrows ∧ cell + 1 < size then s.lanes.lastBefore? (·.endsAt line) cell
      else none
    match runner with
    | some p =>
      if cell + 2 = size then pen.draw p pen.glyphs.arrow else pen.drawRun p passing.isSome
    | none =>
      match passing with
      | some p => pen.draw p pen.glyphs.vertical
      | none => .blank

/-- The margin beside a source line. -/
def sourceMargin (line : Nat) : List Cell :=
  (List.range s.lanes.marginSize).map (sourceMarginCell pen s line)

/-- The margin beside rows below a line, with the character for connectors that pass. -/
def betweenMargin (glyph : CodePoint) (line : Nat) (pending : List Placement) : List Cell :=
  (List.range s.lanes.marginSize).map fun cell =>
    match s.lanes.at? (·.isOpenBelow line pending) cell with
    | some p => pen.draw p glyph
    | none => .blank

/-- A cell of the margin beside the first row of a message, for a label in a lane. -/
def messageMarginCell (line : Nat) (p : Placement) (lane : Nat) (pending : List Placement)
    (cell : Nat) : Cell :=
  let passing := s.lanes.at? (·.isOpenBelow line pending) cell
  if cell = 2 * lane then pen.draw p pen.glyphs.bottomCorner
  else if pen.settings.arrows ∧ 2 * lane < cell ∧ cell + 1 < s.lanes.marginSize then
    pen.drawRun p passing.isSome
  else match passing with
    | some q => pen.draw q pen.glyphs.vertical
    | none => .blank

/-- The margin beside the first row of a message. -/
def messageMargin (line : Nat) (p : Placement) (lane : Nat) (pending : List Placement) :
    List Cell :=
  (List.range s.lanes.marginSize).map (messageMarginCell pen s line p lane pending)

end Snippet

end SourceReport
