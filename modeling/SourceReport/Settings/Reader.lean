import SourceReport.Settings.Basic
import SourceReport.Settings.Warning

/-!
# Settings in tables

Settings are written in three sections of a table: `render`, `context` and `styles`. A value that
cannot be used is left open and reported, so that the usual value applies.

* `Draft.ofTable` reads a table, with a warning for every value of the wrong shape;
  `Draft.load` puts the messages of the warnings into the draft.
* `Settings.table` writes settings as a table; themes are not written.
-/

namespace SourceReport

open Data (Value Table)

/-- What was read under a key, and what was wrong with it. -/
structure Checked (α : Type) where
  value : Option α := none
  warnings : List Warning := []

/-- A section of a table, with its name in messages. -/
structure Section where
  name : Text
  table : Table

namespace Section

/-- The section of a table; one that is missing or no table counts as empty. -/
def of (t : Table) (key : Text) : Section := ⟨"[" ++ key ++ "]", Value.asTable (t.find? key)⟩

/-- How a key of the section is called in messages. -/
def place (s : Section) (key : Text) : Text := s.name ++ "." ++ key

/-- The outcome for a value that cannot be used. -/
def unfit {α : Type} (s : Section) (key : Text) (v : Value) (cause : Unfit) : Checked α :=
  { warnings := [⟨s.place key, v, cause⟩] }

/-- Reads a truth value. -/
def bool (s : Section) (key : Text) : Checked Bool :=
  match s.table.present? key with
  | none => {}
  | some (.bool b) => { value := some b }
  | some v => s.unfit key v (.kind "bool")

/-- Reads an integer that is not below a minimum. -/
def int (s : Section) (key : Text) (minimum : Int) : Checked Int :=
  match s.table.present? key with
  | none => {}
  | some (.int n) =>
    if n < minimum then s.unfit key (.int n) (.below minimum) else { value := some n }
  | some v => s.unfit key v (.kind "int")

/-- Reads one of the alternatives of a choice. -/
def choice (α : Type) [Choice α] (s : Section) (key : Text) : Checked α :=
  match s.table.present? key with
  | none => {}
  | some (.text word) =>
    match Choice.parse? word with
    | some a => { value := some a }
    | none => s.unfit key (.text word) (.word (Choice.keys α))
  | some v => s.unfit key v (.kind "string enum value")

/-- Reads a color. -/
def color (s : Section) (key : Text) : Checked Color :=
  match s.table.present? key with
  | none => {}
  | some v =>
    match Color.ofValue? v with
    | some c => { value := some c }
    | none => s.unfit key v .color

end Section

namespace Theme

/-- The levels in the order in which their headers are read. -/
def headerOrder : List Level := [.fatal, .error, .warning, .info, .custom]

/-- The theme with the colors of a section, and what was wrong with them. -/
def ofSection (s : Section) : Theme × List Warning :=
  let usual : Theme := {}
  let header (l : Level) : Checked Color := s.color ("header_" ++ l.name)
  let recolor (c : Checked Color) (style : Style) : Style :=
    (c.value.map style.withForeground).getD style
  let primary := s.color "primary_label"
  let secondary := s.color "secondary_label"
  let number := s.color "line_number"
  let border := s.color "source_border"
  let bullet := s.color "note_bullet"
  let skipped := s.color "skipped"
  ({ headers := .ofFn fun l => (usual.headers.get? l).map (recolor (header l))
     primaryLabel := (primary.value.map Style.colored).or usual.primaryLabel
     secondaryLabel := recolor secondary usual.secondaryLabel
     lineNumber := recolor number usual.lineNumber
     sourceBorder := recolor border usual.sourceBorder
     noteBullet := recolor bullet usual.noteBullet
     skipped := recolor skipped usual.skipped },
    headerOrder.flatMap (fun l => (header l).warnings)
      ++ [primary, secondary, number, border, bullet, skipped].flatMap (·.warnings))

end Theme

/-- Reads settings from a table; the warnings are not yet part of the draft. -/
def Draft.ofTable (t : Table) : Draft × List Warning :=
  let render := Section.of t "render"
  let context := Section.of t "context"
  let styles := Section.of t "styles"
  let charSet := render.choice CharSet "char_set"
  let tabWidth := render.int "tab_width" 0
  let color := render.bool "color"
  let attach := render.choice Attach "label_attach"
  let crossGap := render.bool "cross_gap"
  let compact := render.bool "compact"
  let arrows := render.bool "multiline_arrows"
  let detail := render.choice Detail "display_style"
  let palette := render.bool "palette"
  let before := context.int "lines_before" 0
  let after := context.int "lines_after" 0
  let gap := context.int "gap_threshold" 0
  let (theme, themeWarnings) := Theme.ofSection styles
  ({ charSet := charSet.value
     tabWidth := tabWidth.value
     color := color.value
     attach := attach.value
     crossGap := crossGap.value
     compact := compact.value
     arrows := arrows.value
     linesBefore := before.value
     linesAfter := after.value
     gapThreshold := gap.value
     detail := detail.value
     palette := palette.value
     theme := if styles.table.isEmpty then none else some theme },
    charSet.warnings ++ tabWidth.warnings ++ color.warnings ++ attach.warnings
      ++ crossGap.warnings ++ compact.warnings ++ arrows.warnings ++ detail.warnings
      ++ palette.warnings ++ before.warnings ++ after.warnings ++ gap.warnings ++ themeWarnings)

/-- Reads settings from a table, with the messages of the warnings. -/
def Draft.load (t : Table) : Except UnwritableWarning Draft :=
  let (d, warnings) := ofTable t
  (Warning.messages warnings).map fun messages => { d with warnings := messages }

/-- Settings as a table. -/
def Settings.table (s : Settings) : Table := [
  ("render", .table [
    ("char_set", .text (Choice.key s.charSet)),
    ("tab_width", .int s.tabWidth),
    ("color", .bool s.color),
    ("label_attach", .text (Choice.key s.attach)),
    ("cross_gap", .bool s.crossGap),
    ("compact", .bool s.compact),
    ("multiline_arrows", .bool s.arrows),
    ("display_style", .text (Choice.key s.detail)),
    ("palette", .bool s.palette)]),
  ("context", .table [
    ("lines_before", .int s.linesBefore),
    ("lines_after", .int s.linesAfter),
    ("gap_threshold", .int s.gapThreshold)])]

/-- The table of the usual settings. -/
def usualTable : Table := ({} : Settings).table.set "styles" (.table [])

/-- The draft of the usual settings; the theme is left open. -/
def Draft.usual : Draft := (Draft.ofTable usualTable).1

end SourceReport
