import SourceReport.Layout.Cells
import SourceReport.Style.Glyphs
import SourceReport.Style.Theme

/-!
# Settings

What a report looks like. `Settings` holds a value for every setting; a `Draft` leaves some of them
open, so that drafts can be laid over each other.

* `Draft.above` lays one draft over another: what the upper one leaves open the lower one decides.
* `Draft.settle` fills what is open with the usual values; negative amounts become 0.
* `Settings.draft` leaves nothing open, and settling it gives the settings back.
-/

namespace SourceReport

/-- How much a report shows. -/
inductive Detail where
  | rich
  | medium
  | short
deriving DecidableEq

instance : Choice Detail where
  title := "displaystyle"
  all := [.rich, .medium, .short]
  key
    | .rich => "rich"
    | .medium => "medium"
    | .short => "short"
  label
    | .rich => "Header, annotated source snippets and notes"
    | .medium => "One line per diagnostic, plus notes"
    | .short => "One line per diagnostic"
  aliases
    | .rich => ["full"]
    | _ => []

/-- The settings of a report. -/
structure Settings where
  charSet : CharSet := .unicode
  /-- The distance of tab stops in cells. -/
  tabWidth : Nat := 4
  /-- Whether styles are written. -/
  color : Bool := true
  /-- Where the connectors of messages hang. -/
  attach : Attach := .middle
  /-- Whether a vertical connector has a gap where a horizontal one crosses it. -/
  crossGap : Bool := true
  /-- Whether the empty rows around snippets are left out. -/
  compact : Bool := false
  /-- Whether labels of several lines have arrows and runs to their messages. -/
  arrows : Bool := true
  /-- The number of lines shown before each end of a label of several lines. -/
  linesBefore : Nat := 1
  /-- The number of lines shown after each end. -/
  linesAfter : Nat := 1
  /-- The length of the longest gap between lines that is filled. -/
  gapThreshold : Nat := 1
  detail : Detail := .rich
  /-- Whether labels without a color get one from the palette. -/
  palette : Bool := true
  theme : Theme := {}
  /-- The files from which the settings come. -/
  files : List Text := []
  /-- What was wrong in these files. -/
  warnings : List Text := []
deriving DecidableEq

/-- Settings of which some are open. -/
structure Draft where
  charSet : Option CharSet := none
  tabWidth : Option Int := none
  color : Option Bool := none
  attach : Option Attach := none
  crossGap : Option Bool := none
  compact : Option Bool := none
  arrows : Option Bool := none
  linesBefore : Option Int := none
  linesAfter : Option Int := none
  gapThreshold : Option Int := none
  detail : Option Detail := none
  palette : Option Bool := none
  theme : Option Theme := none
  files : List Text := []
  warnings : List Text := []
deriving DecidableEq

namespace Draft

/-- Lays a draft over another one. -/
def above (upper lower : Draft) : Draft where
  charSet := upper.charSet.or lower.charSet
  tabWidth := upper.tabWidth.or lower.tabWidth
  color := upper.color.or lower.color
  attach := upper.attach.or lower.attach
  crossGap := upper.crossGap.or lower.crossGap
  compact := upper.compact.or lower.compact
  arrows := upper.arrows.or lower.arrows
  linesBefore := upper.linesBefore.or lower.linesBefore
  linesAfter := upper.linesAfter.or lower.linesAfter
  gapThreshold := upper.gapThreshold.or lower.gapThreshold
  detail := upper.detail.or lower.detail
  palette := upper.palette.or lower.palette
  theme := upper.theme.or lower.theme
  files := lower.files ++ upper.files
  warnings := lower.warnings ++ upper.warnings

/-- The settings with the usual values for what is open. -/
def settle (d : Draft) : Settings :=
  let usual : Settings := {}
  let amount (given : Option Int) (otherwise : Nat) : Nat := (given.map (·.toNat)).getD otherwise
  { charSet := d.charSet.getD usual.charSet
    tabWidth := amount d.tabWidth usual.tabWidth
    color := d.color.getD usual.color
    attach := d.attach.getD usual.attach
    crossGap := d.crossGap.getD usual.crossGap
    compact := d.compact.getD usual.compact
    arrows := d.arrows.getD usual.arrows
    linesBefore := amount d.linesBefore usual.linesBefore
    linesAfter := amount d.linesAfter usual.linesAfter
    gapThreshold := amount d.gapThreshold usual.gapThreshold
    detail := d.detail.getD usual.detail
    palette := d.palette.getD usual.palette
    theme := d.theme.getD usual.theme
    files := d.files
    warnings := d.warnings }

end Draft

/-- The draft that leaves nothing open. -/
def Settings.draft (s : Settings) : Draft where
  charSet := some s.charSet
  tabWidth := some s.tabWidth
  color := some s.color
  attach := some s.attach
  crossGap := some s.crossGap
  compact := some s.compact
  arrows := some s.arrows
  linesBefore := some s.linesBefore
  linesAfter := some s.linesAfter
  gapThreshold := some s.gapThreshold
  detail := some s.detail
  palette := some s.palette
  theme := some s.theme
  files := s.files
  warnings := s.warnings

end SourceReport
