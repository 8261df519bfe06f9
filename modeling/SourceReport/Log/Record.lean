import SourceReport.Log.Level
import SourceReport.Output.Ansi

/-!
# Log records

A log record is written on a line of its own: its level in brackets and its message, in a color that
tells how urgent it is.

* `LogRecord.fill` puts values in place of the directives of a template.
* `LogRecord.emit` writes a record unless it lies below the threshold.
-/

namespace SourceReport

open Data (Value)

/-- A log record. -/
structure LogRecord where
  level : LogLevel
  message : Text
deriving DecidableEq

namespace LogRecord

/-- A value in place of `%s`: texts stand for themselves. -/
def plainText : Value → Text
  | .text t => t
  | v => v.literal

/-- What a directive makes of a value; `none` for a letter that is no directive. -/
def directive? (letter : CodePoint) (v : Value) : Option Text :=
  if letter = 's' then some (plainText v)
  else if letter = 'r' then some v.literal
  else if letter = 'd' || letter = 'i' then
    match v with
    | .int n => some (Text.ofInt n)
    | _ => none
  else none

/-- The template with values in place of its directives. -/
def fill : Text → List Value → Text
  | c :: d :: rest, values =>
    if c = '%' then
      if d = '%' then '%' :: fill rest values
      else
        match values with
        | v :: values => (directive? d v).getD [c, d] ++ fill rest values
        | [] => c :: d :: fill rest []
    else c :: fill (d :: rest) values
  | rest, _ => rest

/-- The record of a template; without values the template is the message. -/
def ofTemplate (level : LogLevel) (template : Text) (values : List Value) : LogRecord :=
  ⟨level, if values.isEmpty then template else fill template values⟩

/-- The attributes of a record. -/
def attributes (level : LogLevel) : Ansi.Attributes :=
  let colored (name : Text) : Ansi.Attributes := { foreground := some (.named name) }
  if LogLevel.critical ≤ level then colored "bright_red"
  else if LogLevel.error ≤ level then colored "red"
  else if LogLevel.warning ≤ level then colored "yellow"
  else if LogLevel.info ≤ level then colored "green"
  else if LogLevel.debug ≤ level then colored "bright_black"
  else if LogLevel.trace ≤ level then colored "blue"
  else { colored "red" with dim := some true }

/-- A record as it is written. -/
def line (r : LogRecord) : Text :=
  let shown := "[" ++ r.level.name ++ "] " ++ r.message
  match Ansi.paint (attributes r.level) shown with
  | .ok painted => painted
  -- the colors of records are known to every terminal
  | .error _ => shown

/-- What is written of a record. -/
def emit (threshold : LogLevel) (r : LogRecord) : Text :=
  if r.level < threshold then [] else r.line ++ "\n"

end LogRecord

end SourceReport
