import SourceReport.Command.Format
import SourceReport.Command.Session
import SourceReport.Command.Value
import SourceReport.Data.Json.Printer
import SourceReport.Source.Position

/-!
# Looking places up

The command `locate` names one place of a file in three ways: by its byte offset, by line and column
for people, and by its position in an editor. The place is given as an offset or as a position.
-/

namespace SourceReport

open Data (Value)

/-- What the command is asked for. -/
structure LocateOptions where
  file : Text := []
  offset : Option Int := none
  position : Option Text := none
  format : Option OutputFormat := none

/-- A place of a file. -/
structure Place where
  file : Text
  offset : Int
  location : Location
  position : Position

namespace Place

/-- The place as a table. -/
def value (p : Place) : Value := .table [
  ("file", .text p.file),
  ("offset", .int p.offset),
  ("line", .int p.location.line),
  ("column", .int p.location.column),
  ("lsp", .table [("line", .int p.position.line), ("character", .int p.position.character)])]

/-- The place in three lines. -/
def lines (p : Place) : List Text := [
  "offset:   " ++ Text.ofInt p.offset,
  "location: " ++ p.file ++ ":" ++ p.location.display,
  "lsp:      " ++ p.position.display]

end Place

namespace Locate

/-- What the words of the command mean. -/
def grammar : Grammar LocateOptions where
  options := [
    ⟨["--position"], .value fun _ word => .ok fun o => { o with position := some word }⟩,
    ⟨["--format"], .choice fun format o => { o with format := some format }⟩,
    .help]
  operands := [
    ⟨"FILE", true, filePath fun file o => { o with file := file }⟩,
    ⟨"[OFFSET]", false, amount fun offset o => { o with offset := some offset }⟩]
  mixed := true

/-- What is said unless exactly one of offset and position is given. -/
def oneOf : Text := "Pass exactly one of OFFSET or --position."

/-- The failure of a run that is given no position. -/
def misread (word : Text) : Failure :=
  ⟨.usage, "Invalid position " ++ word.quoted ++ ": expected LINE:CHARACTER"⟩

/-- The place of an offset. -/
def atOffset (s : Source) (offset : Int) : Except LookupError Place := do
  let position ← s.positionOf? offset
  let location ← s.location? offset
  return ⟨s.name.display, offset, location, position⟩

/-- The place of a position. -/
def atPosition (s : Source) (position : Position) : Except LookupError Place := do
  let offset ← s.offsetOf? position
  let location ← s.location? offset
  return ⟨s.name.display, offset, location, position⟩

/-- What was looked up. A number that no error can name breaks the run off. -/
def found {α : Type} (x : Except LookupError α) : Action α :=
  match x with
  | .error (.digits e) => throw (.broken (.refused (.digits e)))
  | _ => Session.ofLibrary .lookup x

/-- The place that is asked for. -/
def place (o : LocateOptions) (s : Source) : Action Place := do
  match o.offset, o.position with
  | some offset, none => found (atOffset s offset)
  | none, some word =>
    match Position.ofText? word with
    | .ok position => found (atPosition s position)
    | .error (.malformed word) => throw (.failed (misread word))
    | .error (.digits e) => throw (.broken (.refused (.digits e)))
  | _, _ => Session.fail .usage oneOf

/-- The command. -/
def command (o : LocateOptions) : Action Status := do
  if o.offset.isSome = o.position.isSome then Session.fail .usage oneOf
  Session.requireFile o.file
  let source ← Session.readSource (.ofText o.file)
  let p ← place o source
  match o.format with
  | some .json => Session.printLine (Data.Json.print p.value)
  | _ => p.lines.forM Session.printLine
  return .success

end Locate

end SourceReport
