import SourceReport.Settings.Choice

/-!
# Color modes

Whether a report is colored. The user's word comes first; formats that carry styles as markup are
always colored; then the environment decides, and at last whether the output is a terminal.
-/

namespace SourceReport

/-- What the user says about colors. -/
inductive ColorMode where
  | auto
  | always
  | never
deriving DecidableEq

instance : Choice ColorMode where
  title := "colormode"
  all := [.auto, .always, .never]
  key
    | .auto => "auto"
    | .always => "always"
    | .never => "never"
  loose := false

/-- The variables of the environment that a run looks at. -/
structure Environment where
  forceColor : Option Text := none
  noColor : Option Text := none
  logLevel : Option Text := none

/-- Whether a format carries styles as markup. -/
def isMarkup (format : Text) : Bool := [("html" : Text), "svg"].contains format.toLower

/-- Whether the environment asks for colors, if it says anything. -/
def Environment.wantsColor? (env : Environment) : Option Bool :=
  if env.forceColor.any fun v : Text => v ≠ [] && v ≠ "0" then some true
  else if env.noColor.isSome then some false
  else none

/-- Whether output is colored. -/
def ColorMode.resolve (mode : Option ColorMode) (format : Option Text) (env : Environment)
    (isTerminal : Bool) : Bool :=
  match mode with
  | some .always => true
  | some .never => false
  | _ =>
    if format.any isMarkup then true
    else env.wantsColor?.getD isTerminal

end SourceReport
