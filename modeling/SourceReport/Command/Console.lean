import SourceReport.Output.Ansi

/-!
# Consoles

What a run has written to its two outputs. A console without color takes every escape sequence out
of what it writes.

* Warnings and errors are painted and go to the second output.
* The second output can hold every text: a surrogate is written as an escape.
-/

namespace SourceReport

/-- The two outputs of a run. -/
structure Console where
  color : Bool
  /-- What the run answers. -/
  out : Text := []
  /-- What the run says about itself. -/
  err : Text := []

/-- The text with an escape in place of each surrogate. -/
def Text.escapeSurrogates (t : Text) : Text :=
  t.flatMap fun c : CodePoint => if c.isSurrogate then "\\u" ++ hexDigits 4 c.val else [c]

namespace Console

/-- The text as the console shows it. -/
def shown (c : Console) (t : Text) : Text := if c.color then t else Ansi.strip t

/-- The end of a line, if there is one. -/
def lineEnd (newline : Bool) : Text := if newline then "\n" else []

/-- Writes to the first output. -/
def print (c : Console) (t : Text) (newline : Bool) : Console :=
  { c with out := c.out ++ c.shown (t ++ lineEnd newline) }

/-- Writes a text to the second output as it is. -/
def record (c : Console) (t : Text) : Console := { c with err := c.err ++ t.escapeSurrogates }

/-- Writes to the second output. -/
def note (c : Console) (t : Text) (newline : Bool) : Console :=
  c.record (c.shown (t ++ lineEnd newline))

/-- Writes to the second output in a color. -/
def noteIn (color : Text) (c : Console) (t : Text) (newline : Bool) : Console :=
  match Ansi.paint { foreground := some (.named color) } t with
  | .ok painted => c.note painted newline
  | .error _ => c.note t newline

/-- Writes a warning. -/
def warn : Console → Text → Bool → Console := noteIn "yellow"

/-- Writes an error. -/
def error : Console → Text → Bool → Console := noteIn "bright_red"

/-- A text with attributes; without color it stays as it is. -/
def styled (c : Console) (a : Ansi.Attributes) (t : Text) : Except Ansi.UnknownColor Text :=
  if c.color then Ansi.paint a t else .ok t

end Console

end SourceReport
