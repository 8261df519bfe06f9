import SourceReport.Command.Format
import SourceReport.Command.Session
import SourceReport.Command.Value
import SourceReport.Document.Basic
import SourceReport.Output.Svg

/-!
# Rendering documents

The command `render` reports the diagnostics of a document.

* Settings are layered: the usual ones, those of a settings file, those of the command line.
* The report goes to the first output or to a file. Warnings, repairs and a summary go to the second
  output, as far as the user wants to hear of them.
* The run ends with a status of its own if a diagnostic is at least as severe as a given level.
-/

namespace SourceReport

/-- What the command is asked for. -/
structure RenderOptions where
  document : Text := []
  settingsFile : Option Text := none
  /-- Whether settings files are left aside that are not named. -/
  usualSettings : Bool := false
  charSet : Option CharSet := none
  detail : Option Detail := none
  attach : Option Attach := none
  tabWidth : Option Int := none
  compact : Option Bool := none
  /-- The number of lines shown before and after each end of a label of several lines. -/
  contextLines : Option Int := none
  format : Option RenderFormat := none
  output : Option Text := none
  /-- From this level on a diagnostic gives the run a status of its own. -/
  failOn : Option Level := none

namespace Render

/-- The levels that the run can fail on. -/
def failLevels : List (Text × Level) :=
  [Level.info, .warning, .error, .fatal].map fun l => (l.name, l)

/-- What the words of the command mean. -/
def grammar : Grammar RenderOptions where
  options := [
    ⟨["--context"], .amount fun n o => { o with contextLines := some n }⟩,
    ⟨["--compact"], .switch fun o => { o with compact := some true }⟩,
    ⟨["--no-compact"], .switch fun o => { o with compact := some false }⟩,
    ⟨["--tab-width"], .amount fun n o => { o with tabWidth := some n }⟩,
    ⟨["--attach"], .choice fun a o => { o with attach := some a }⟩,
    ⟨["--style"], .choice fun d o => { o with detail := some d }⟩,
    ⟨["--charset"], .choice fun c o => { o with charSet := some c }⟩,
    ⟨["--no-config"], .switch fun o => { o with usualSettings := true }⟩,
    ⟨["--config"], .filePath fun p o => { o with settingsFile := some p }⟩,
    ⟨["--format"], .choice fun f o => { o with format := some f }⟩,
    ⟨["-o", "--output"], .filePath fun p o => { o with output := some p }⟩,
    ⟨["--fail-on"], .value (oneOf failLevels fun l o => { o with failOn := some l })⟩,
    .help]
  operands := [⟨"DOCUMENT", true, filePath fun p o => { o with document := p }⟩]
  mixed := true

/-! ## Settings -/

/-- The settings of the command line. -/
def overrides (o : RenderOptions) : Draft where
  charSet := o.charSet
  detail := o.detail
  attach := o.attach
  tabWidth := o.tabWidth
  compact := o.compact
  linesBefore := o.contextLines
  linesAfter := o.contextLines

/-- Ends the run for settings that cannot be used, with log records. -/
def refuseSettings {α : Type} (e : SettingsError) : Action α := do
  let fail (trouble : Text) : Action α := do
    Session.log .error (trouble ++ e.path.toText ++ ": " ++ e.reason)
    throw (.failed (.of (.settings e)))
  match e.fault with
  | .unreadable _ => fail "Error loading TOML from "
  | .malformed _ => fail "Error decoding TOML from "
  | .refused r => throw (.broken (.refused r))
  | .unwritable w => do
    w.before.forM (Session.log .warning)
    throw (.broken (.refused (.digits w.cause)))

/-- What comes of settings files. -/
def ofSettings {α : Type} (x : Except SettingsError α) : Action α :=
  match x with
  | .ok a => return a
  | .error e => refuseSettings e

/-- The settings file that is named, or the nearest one. -/
def settingsPath (o : RenderOptions) : Action (Option Path) := do
  let tree := (← get).tree
  match o.settingsFile with
  | some file =>
    if tree.isFile (.ofText file) then return some (.ofText file)
    else Session.fail .settings ("Config file not found: " ++ file)
  | none =>
    if o.usualSettings then return none
    else ofSettings (tree.discover? (tree.resolve (.ofText o.document)).parent)

/-- Says in the log which settings file is used and what is wrong with it. -/
def logSettings (path : Path) (draft : Draft) : Action Unit := do
  if draft.files.isEmpty then
    Session.log .info ("[tool.spanmark] section missing in " ++ path.toText)
  draft.warnings.forM (Session.log .warning)

/-- The settings of the run. -/
def settings (o : RenderOptions) : Action Draft := do
  let path ← settingsPath o
  path.forM fun path => Session.log .info ("Using configuration from " ++ path.toText)
  let draft ← ofSettings ((← get).tree.layered? path)
  path.forM fun path => logSettings path draft
  return (overrides o).above draft

/-- Whether the report is colored. The settings can only turn off what nobody asked for. -/
def isColored (s : Session) (o : RenderOptions) (draft : Draft) : Bool :=
  ColorMode.resolve s.mode (some (Choice.key (o.format.getD .text))) s.env false
    && !(s.mode.isNone && draft.color = some false)

/-! ## The document -/

/-- What the log says of an error in a document. -/
def documentTrouble? : DocumentError → Option Text
  | .shape _ (.surrogates name) =>
    some ("Cannot encode source " ++ name ++ ": " ++ EncodingError.reason)
  | .collision (.collision id name) =>
    some ("Source collision for " ++ name.display ++ " (" ++ id.display ++ ")")
  | .source e => some (Session.sourceTrouble e)
  | _ => none

/-- What the log says of a document that was read. -/
def documentSummary (d : Document) : Text :=
  "Loaded " ++ Text.ofNat d.registry.size ++ " source(s) and " ++ Text.ofNat d.diagnostics.length
    ++ " diagnostic(s)"

/-- The document and the warnings about it. -/
def document (o : RenderOptions) : Action (Document × List Text) := do
  let loading := Document.ofFile (← get).tree (.ofText o.document)
  loading.warnings.forM (Session.log .warning)
  match loading.outcome with
  | .ok d =>
    Session.log .info (documentSummary d)
    return (d, loading.warnings)
  | .error e =>
    (documentTrouble? e).forM (Session.log .error)
    match e with
    | .fileName e => throw (.broken (.fileName e))
    | .refused r => throw (.broken (.refused r))
    | e => throw (.failed (.of (.document e)))

/-! ## The report -/

/-- What the log says of an issue. -/
def issueTrouble (i : Issue) : Text :=
  match i.flaw with
  | .unregistered => "Source " ++ i.file.display ++ " is not registered; rendering without snippet"
  | .offset _ => "Repaired " ++ i.message

/-- The report in its format. -/
def write (format : RenderFormat) (color : Bool) (r : Report) :
    Except Ansi.UnknownColor Text :=
  match format with
  | .text => r.write (if color then .ansi else .plain) color
  | .html => r.write .html color
  | .svg => (r.write .html color).map (Svg.wrap {})

/-- Writes an answer to a file. A text that has no encoding leaves the file empty. -/
def writeFile (file : Text) (t : Text) : Action Unit := do
  let save (bytes : List UInt8) : Action Unit := do
    match (← get).tree.write? (.ofText file) bytes with
    | .ok tree => modify fun s => { s with tree := tree }
    | .error fault =>
      Session.fail .io ("Cannot write " ++ file ++ ": " ++ fault.message (.ofText file))
  if t.loneSurrogate?.isSome then
    save []
    throw (.broken .encoding)
  else save t.utf8

/-- Writes the report to where it shall go. -/
def deliver (o : RenderOptions) (t : Text) : Action Unit := do
  match o.output with
  | some file =>
    writeFile file t
    Session.log .info ("Wrote " ++ Choice.key (o.format.getD .text) ++ " output to " ++ file)
  | none => Session.print t false

/-- Warns of what happened on the way, if the user wants to hear of it. -/
def warnOf (messages : List Text) : Action Unit := do
  if ← Session.talksAt .warning then
    messages.forM fun m : Text => Session.warn ("warning: " ++ m)

/-- The number of diagnostics of a level, in its color; nothing if there are none. -/
def countOf (t : Tally) (l : Level) : Action (List Text) := do
  if t.count l = 0 then return []
  else
    return [← Session.styled { foreground := some (.named l.colorName) }
      (Text.ofNat (t.count l) ++ " " ++ l.name)]

/-- Counts the diagnostics, if the user wants to hear of it. -/
def summarize (t : Tally) : Action Unit := do
  if ← Session.talksAt .info then
    let parts := (← Level.all.mapM (countOf t)).flatten
    let list : Text := if parts.isEmpty then [] else ": " ++ Text.join ", " parts
    Session.warn ("Rendered " ++ Text.ofNat t.total ++ " diagnostic(s)" ++ list)

/-- Whether a diagnostic is at least as severe as the level to fail on. -/
def fails (o : RenderOptions) (ds : List Diagnostic) : Bool :=
  match o.failOn with
  | none => false
  | some threshold => ds.any fun d => Level.atLeast threshold d.level

/-- The status of a run that has written its report. -/
def conclude (o : RenderOptions) (ds : List Diagnostic) : Action Status := do
  if fails o ds then
    o.failOn.forM fun l =>
      Session.log .info ("Diagnostics at or above " ++ l.name ++ " found")
    return .thresholdReached
  else return .success

/-- The command. -/
def command (o : RenderOptions) : Action Status := do
  Session.requireFile o.document
  let draft ← settings o
  let (d, warnings) ← document o
  let color := isColored (← get) o draft
  let settings := { draft with color := some color }.settle
  warnOf (settings.warnings ++ warnings)
  let report := Report.ofAll settings d.registry d.diagnostics
  report.issues.forM fun i => Session.log .warning (issueTrouble i)
  match write (o.format.getD .text) color report with
  | .error e => throw (.broken (.color e))
  | .ok t => deliver o t
  warnOf (report.issues.map (·.message))
  summarize (.ofLevels (d.diagnostics.map (·.level)))
  conclude o d.diagnostics

end Render

end SourceReport
