import SourceReport.Diagnostic.Label
import SourceReport.Diagnostic.Level
import SourceReport.Style.Basic

/-!
# Themes

A theme gives every element of a report its style.

* `Theme.header` is the style of the word for a level: a level without one of its own takes that of
  the custom level, and bold text if that is missing too.
* `Theme.label` is the style of a label that has no color of its own.
-/

namespace SourceReport

/-- The styles of the words for the levels. -/
structure Headers where
  info : Option Style := none
  warning : Option Style := none
  error : Option Style := none
  fatal : Option Style := none
  custom : Option Style := none
deriving DecidableEq

namespace Headers

/-- The style of a level. -/
def get? (h : Headers) : Level → Option Style
  | .info => h.info
  | .warning => h.warning
  | .error => h.error
  | .fatal => h.fatal
  | .custom => h.custom

/-- The styles that a function gives to the levels. -/
def ofFn (f : Level → Option Style) : Headers :=
  ⟨f .info, f .warning, f .error, f .fatal, f .custom⟩

/-- Bold text, in a color that tells the levels apart. -/
def default : Headers := ofFn fun l => some { Style.named l.colorName with bold := true }

end Headers

/-- The styles of the elements of a report. -/
structure Theme where
  headers : Headers := Headers.default
  /-- The message in the header. -/
  headerMessage : Style := { bold := true }
  /-- Primary labels; without it they take the color of the header. -/
  primaryLabel : Option Style := none
  secondaryLabel : Style := Style.named "bright_blue"
  lineNumber : Style := Style.named "bright_cyan"
  sourceBorder : Style := Style.named "bright_cyan"
  noteBullet : Style := Style.named "bright_cyan"
  /-- The marks for skipped lines and missing sources. -/
  skipped : Style := Style.named "bright_black"
deriving DecidableEq

namespace Theme

/-- The style of the word for a level. -/
def header (t : Theme) (l : Level) : Style :=
  (t.headers.get? l).getD (t.headers.custom.getD { bold := true })

/-- The style of a label without a color of its own. -/
def label (t : Theme) (l : Level) : Emphasis → Style
  | .secondary => t.secondaryLabel
  | .primary => t.primaryLabel.getD { foreground := (t.header l).foreground }

/-- The theme with all headers and the primary labels in one color. -/
def ofColor (c : Color) : Theme where
  headers := .ofFn fun _ => some { Style.colored c with bold := true }
  primaryLabel := some (Style.colored c)

end Theme

end SourceReport
