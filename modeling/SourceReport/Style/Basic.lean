import SourceReport.Style.Color

/-!
# Styles

The look of a run of text: its two colors, its weight and whether it is underlined.
-/

namespace SourceReport

/-- The look of a run of text. -/
structure Style where
  foreground : Option Color := none
  background : Option Color := none
  bold : Bool := false
  underline : Bool := false
deriving DecidableEq

namespace Style

/-- A style that changes nothing. -/
def plain : Style := {}

/-- Whether a style changes nothing. -/
def isPlain (s : Style) : Bool := s = plain

/-- Text in a color of its own. -/
def colored (c : Color) : Style := { foreground := some c }

/-- Text in a named color. -/
def named (name : Text) : Style := colored (.named name)

/-- The style with another foreground. -/
def withForeground (s : Style) (c : Color) : Style := { s with foreground := some c }

end Style

end SourceReport
