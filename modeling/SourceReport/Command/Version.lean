import SourceReport.Command.Format
import SourceReport.Command.Session
import SourceReport.Command.Value
import SourceReport.Data.Json.Printer

/-!
# The version

The command `version` tells the version of the program.
-/

namespace SourceReport

/-- What the command is asked for. -/
structure VersionOptions where
  format : Option OutputFormat := none

namespace Version

/-- The version of the program. -/
def number : Text := "0.1.0"

/-- What the words of the command mean. -/
def grammar : Grammar VersionOptions where
  options := [⟨["--format"], .choice fun f o => { o with format := some f }⟩, .help]
  operands := []
  mixed := true

/-- The command. -/
def command (o : VersionOptions) : Action Status := do
  let strong : Ansi.Attributes := { bold := some true }
  if o.format = some .json then
    Session.printLine (Data.Json.print (.table [("version", .text number)]))
  else if ← Session.talksAt .info then
    Session.printLine
      (← Session.styled { strong with underline := some true } "SpanMark version:")
    Session.printLine ("    " ++ (← Session.styled strong number))
  else Session.printLine (← Session.styled strong number)
  return .success

end Version

end SourceReport
