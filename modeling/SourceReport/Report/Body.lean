import SourceReport.Report.Header
import SourceReport.Report.Marks

/-!
# Bodies

The rows of a snippet below its locator. Each source line in the window is followed by the
underlines of its labels of one line, by their messages in order, and by the messages of the labels
of several lines that end there, those of the inner lanes first.

* `Snippet.lineRows` are the rows of a source line, `Snippet.bodyRows` those of the whole snippet.
-/

namespace SourceReport

namespace Pen

variable (pen : Pen)

/-- The gutter with a line number or without one, and the character of its border. -/
def gutterWith (number : Option Nat) (border : Run) : List Run :=
  let first : Run := match number with
    | some n => ⟨(Text.ofNat n).padStart pen.digits, some pen.settings.theme.lineNumber⟩
    | none => ⟨Text.spaces pen.digits, none⟩
  [first, ⟨" ", none⟩, border, ⟨" ", none⟩]

/-- The gutter of an ordinary row. -/
def gutter (number : Option Nat) : List Run :=
  pen.gutterWith number ⟨[pen.glyphs.vertical], some pen.settings.theme.sourceBorder⟩

/-- An empty row beside a snippet. -/
def borderRow : Row := { kind := .border, gutter := pen.gutter none }

/-- The row in place of a missing source. -/
def unavailableRow : Row where
  kind := .unavailable
  gutter := pen.gutter none
  text := [⟨"source unavailable", some pen.settings.theme.skipped⟩]

end Pen

namespace Snippet

variable (pen : Pen) (s : Snippet)

/-- The row in place of lines that are not shown. -/
def skippedRow (first count : Nat) : Row where
  kind := .skipped first count
  gutter := pen.gutterWith none ⟨[pen.glyphs.verticalBreak], some pen.settings.theme.skipped⟩
  margin := betweenMargin pen s pen.glyphs.verticalGap (first - 1) []
  text :=
    let noun : Text := if count = 1 then "line" else "lines"
    [⟨pen.glyphs.ellipsis ++ " " ++ Text.ofNat count ++ " " ++ noun ++ " skipped",
      some pen.settings.theme.skipped⟩]

/-- The row of a source line. -/
def sourceRow (line : Nat) (display : DisplayLine) : Row where
  kind := .source line
  gutter := pen.gutter (some (line + 1))
  margin := sourceMargin pen s line
  text := [⟨display.text, none⟩]

/-- The rows of a message: the first one has a margin and cells of its own. -/
def messageRows (p : Placement) (margin margins : List Cell) (cells cellsBelow : List Cell)
    (lead : Text) : List Row :=
  p.messageRows.mapIdx fun n row =>
    { kind := .message p.index n
      gutter := pen.gutter none
      margin := if n = 0 then margin else margins
      cells := if n = 0 then cells else cellsBelow
      text := [⟨lead ++ row, none⟩] }

/-- The messages of labels of one line, in order. -/
def markMessages (margin : List Cell) (column : Nat) : Marks → List Row
  | [] => []
  | (p, range) :: later =>
    messageRows pen p margin margin (Marks.connectors pen column later p range.attach)
        (Marks.hanging pen column later) " "
      ++ markMessages margin column later

/-- The underlines and messages of the labels of one line. -/
def markRows (line : Nat) (pending : List Placement) (marks : Marks) : List Row :=
  if marks.isEmpty then []
  else
    let margin := betweenMargin pen s pen.glyphs.vertical line pending
    let hung := marks.withMessages
    { kind := .underline line
      gutter := pen.gutter none
      margin := margin
      cells := Marks.underline pen marks }
      :: markMessages pen margin hung.messageColumn hung

/-- The labels that end in a line and have a message, from the innermost lane outwards. -/
def endings (line : Nat) : Lanes :=
  (s.lanes.filter fun e => e.1.lastLine = line ∧ e.1.hasMessage).mergeSort fun a b => b.2 ≤ a.2

/-- The messages of labels of several lines, in order. -/
def endingMessages (line : Nat) : Lanes → List Row
  | [] => []
  | (p, lane) :: later =>
    let pending := later.map (·.1)
    messageRows pen p (messageMargin pen s line p lane pending)
        (betweenMargin pen s pen.glyphs.vertical line pending) [] [] []
      ++ endingMessages line later

/-- The labels of one line that stand in a line. -/
def marksOn (line : Nat) (display : DisplayLine) : Marks :=
  Marks.ofLabels pen display (s.labels.filter fun p => !p.isMultiline && p.firstLine = line)

/-- The rows of a source line. -/
def lineRows (source : Source) (line : Nat) : List Row :=
  let raw := (source.lines[line]?.map (·.raw)).getD []
  let display := DisplayLine.ofLine pen.settings.tabWidth raw
  let endings := s.endings line
  sourceRow pen s line display
    :: markRows pen s line (endings.map (·.1)) (marksOn pen s line display)
    ++ endingMessages pen s line endings

/-- The rows of an entry of the window. -/
def entryRows (source : Source) : WindowEntry → List Row
  | .line index => lineRows pen s source index
  | .skipped first count => [skippedRow pen s first count]

/-- The rows of a snippet below its locator. -/
def bodyRows : List Row :=
  let border := if pen.settings.compact then [] else [pen.borderRow]
  match s.source with
  | none => border ++ [pen.unavailableRow]
  | some source =>
    if s.labels.isEmpty then []
    else border ++ s.window.flatMap (entryRows pen s source) ++ border

/-- All rows of the snippets. -/
def allRows (snippets : List Snippet) : List Row :=
  snippets.zipIdx.flatMap fun (s, n) => locatorRow pen (n = 0) s :: bodyRows pen s

end Snippet

end SourceReport
