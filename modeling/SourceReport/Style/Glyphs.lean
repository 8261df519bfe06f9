import SourceReport.Settings.Choice

/-!
# Glyphs

The characters that draw the frame of a report, its connectors and its underlines. Each takes one
cell. One set uses box-drawing characters, the other one ASCII alone.
-/

namespace SourceReport

/-- The set of characters that a report is drawn with. -/
inductive CharSet where
  | unicode
  | ascii
deriving DecidableEq

instance : Choice CharSet where
  title := "charset"
  all := [.unicode, .ascii]
  key
    | .unicode => "unicode"
    | .ascii => "ascii"
  label
    | .unicode => "Unicode box-drawing characters"
    | .ascii => "Plain 7-bit ASCII"
  aliases
    | .unicode => ["utf8", "utf-8"]
    | .ascii => []

/-- The characters of a set by what they draw. -/
structure Glyphs where
  /-- A horizontal run. -/
  horizontal : CodePoint
  /-- A vertical connector, and the border of the gutter. -/
  vertical : CodePoint
  /-- A horizontal run across a vertical connector. -/
  crossing : CodePoint
  /-- The border of the gutter beside skipped lines. -/
  verticalBreak : CodePoint
  /-- A vertical connector beside skipped lines. -/
  verticalGap : CodePoint
  /-- The end of a run that points at the source text. -/
  arrow : CodePoint
  /-- The corner where a connector starts. -/
  topCorner : CodePoint
  /-- The corner where a connector ends. -/
  bottomCorner : CodePoint
  /-- A connector that turns off and goes on. -/
  branch : CodePoint
  /-- The place of an underline where a connector hangs. -/
  junction : CodePoint
  primaryUnderline : CodePoint
  secondaryUnderline : CodePoint
  /-- In front of the place that a report is about. -/
  locator : Text := "-->"
  /-- In front of further sources. -/
  locatorMore : Text := ":::"
  /-- In front of notes. -/
  bullet : Text := "="
  /-- In front of the number of skipped lines. -/
  ellipsis : Text := "..."

namespace Glyphs

/-- Box-drawing characters. -/
def unicode : Glyphs where
  horizontal := '─'
  vertical := '│'
  crossing := '┼'
  verticalBreak := '┆'
  verticalGap := '┆'
  arrow := '▶'
  topCorner := '╭'
  bottomCorner := '╰'
  branch := '├'
  junction := '┬'
  primaryUnderline := '━'
  secondaryUnderline := '─'
  ellipsis := "…"

/-- ASCII characters. -/
def ascii : Glyphs where
  horizontal := '-'
  vertical := '|'
  crossing := '+'
  verticalBreak := '*'
  verticalGap := ':'
  arrow := '>'
  topCorner := ','
  bottomCorner := '\x60'
  branch := '|'
  junction := '|'
  primaryUnderline := '^'
  secondaryUnderline := '-'

end Glyphs

/-- The characters of a set. -/
def CharSet.glyphs : CharSet → Glyphs
  | .unicode => .unicode
  | .ascii => .ascii

end SourceReport
