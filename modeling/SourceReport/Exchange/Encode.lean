import SourceReport.Data.Value
import SourceReport.Layout.Placement
import SourceReport.Settings.Basic
import SourceReport.Source.Position
import SourceReport.Source.Registry

/-!
# Values of the library as data

The form in which other programs get sources, diagnostics and settings: tables of texts, numbers and
lists. What is missing is null.

* `encode` gives a value its form; `record` puts fields together.
-/

namespace SourceReport

open Data (Value)

/-- Values that have a form as data. -/
class Encode (α : Type) where
  encode : α → Value

export Encode (encode)

/-- A table of named fields. -/
def record (fields : List (String × Value)) : Value :=
  .table (fields.map fun field => (Text.ofString field.1, field.2))

instance : Encode Value := ⟨fun v => v⟩

instance : Encode Bool := ⟨.bool⟩

instance : Encode Nat := ⟨fun n => .int n⟩

instance : Encode Int := ⟨.int⟩

instance : Encode Text := ⟨.text⟩

instance : Encode Unit := ⟨fun _ => .null⟩

instance {α : Type} [Encode α] : Encode (Option α) := ⟨fun o => (o.map encode).getD .null⟩

instance {α : Type} [Encode α] : Encode (List α) := ⟨fun xs => .list (xs.map encode)⟩

instance {α β : Type} [Encode α] [Encode β] : Encode (α × β) :=
  ⟨fun p => .list [encode p.1, encode p.2]⟩

instance {ε α : Type} [Encode ε] [Encode α] : Encode (Except ε α) where
  encode
    | .ok a => encode a
    | .error e => encode e

/-! ## Sources -/

instance : Encode SourceId := ⟨fun id => .text id.display⟩

instance : Encode SourceName :=
  ⟨fun n => record [("kind", .text n.kind), ("value", .text n.value)]⟩

/-- The fields of a line. -/
def Line.fields (l : Line) : List (String × Value) := [
  ("index", encode l.index), ("offset", encode l.offset), ("length", encode l.length),
  ("text", .text l.content)]

instance : Encode Line := ⟨fun l => record l.fields⟩

instance : Encode Registered where
  encode r := record [
    ("id", encode r.source.id), ("path", encode r.shown), ("own", encode r.source.name),
    ("text", .text r.source.content)]

instance : Encode Position :=
  ⟨fun p => record [("line", .int p.line), ("character", .int p.character)]⟩

instance : Encode PositionRange :=
  ⟨fun r => record [("start", encode r.start), ("end", encode r.stop)]⟩

/-! ## Diagnostics -/

instance : Encode Color where
  encode
    | .named name => .text name
    | .indexed n => .int n
    | .rgb r g b => encode [r, g, b]

instance : Encode Style where
  encode s := record [
    ("fg", encode s.foreground), ("bg", encode s.background), ("bold", .bool s.bold),
    ("underline", .bool s.underline)]

/-- The fields of a label. -/
def Label.fields (l : Label) : List (String × Value) := [
  ("file", encode l.file), ("start", encode l.span.start), ("end", encode l.span.stop),
  ("message", encode l.message), ("color", encode l.color), ("order", .int l.order),
  ("priority", encode l.priority), ("style", .text l.emphasis.name)]

instance : Encode Label := ⟨fun l => record l.fields⟩

instance : Encode Locator :=
  ⟨fun l => record [("file", encode l.file), ("offset", encode l.offset)]⟩

instance : Encode Diagnostic where
  encode d := record [
    ("severity", .text d.level.name), ("level_name", .text d.levelName),
    ("message", .text d.message), ("code", encode d.code), ("labels", encode d.labels),
    ("notes", encode d.notes), ("location", encode d.location),
    ("custom_name", encode d.customName)]

/-- The diagnostic in one line: its level and its message. -/
def Diagnostic.brief (d : Diagnostic) : Text := d.levelName ++ ":" ++ d.message

/-! ## Settings -/

/-- A table with an entry for each level for which there is a value. -/
def levelTable (f : Level → Option Value) : Value :=
  .table (Level.all.filterMap fun l => (f l).map fun v => (l.name, v))

instance : Encode Theme where
  encode t := record [
    ("headers", levelTable fun l => (t.headers.get? l).map encode),
    ("header_message", encode t.headerMessage), ("primary_label", encode t.primaryLabel),
    ("secondary_label", encode t.secondaryLabel), ("line_number", encode t.lineNumber),
    ("source_border", encode t.sourceBorder), ("note_bullet", encode t.noteBullet),
    ("skipped", encode t.skipped)]

instance (priority := low) {α : Type} [Choice α] : Encode α := ⟨fun a => .text (Choice.key a)⟩

instance : Encode Draft where
  encode d := record [
    ("char_set", encode d.charSet), ("tab_width", encode d.tabWidth), ("color", encode d.color),
    ("label_attach", encode d.attach), ("cross_gap", encode d.crossGap),
    ("compact", encode d.compact), ("multiline_arrows", encode d.arrows),
    ("context_lines_before", encode d.linesBefore), ("context_lines_after", encode d.linesAfter),
    ("gap_threshold", encode d.gapThreshold), ("display_style", encode d.detail),
    ("palette", encode d.palette), ("styles", encode d.theme), ("config_files", encode d.files),
    ("warnings", encode d.warnings)]

instance : Encode Glyphs where
  encode g :=
    let sign (c : CodePoint) : Value := .text [c]
    record [
      ("hbar", sign g.horizontal), ("vbar", sign g.vertical), ("xbar", sign g.crossing),
      ("vbar_break", sign g.verticalBreak), ("vbar_gap", sign g.verticalGap),
      ("rarrow", sign g.arrow), ("ltop", sign g.topCorner), ("lbot", sign g.bottomCorner),
      ("lcross", sign g.branch), ("underbar", sign g.junction),
      ("primary_underline", sign g.primaryUnderline),
      ("secondary_underline", sign g.secondaryUnderline), ("locator", .text g.locator),
      ("locator_more", .text g.locatorMore), ("note_bullet", .text g.bullet),
      ("ellipsis", .text g.ellipsis)]

instance : Encode Settings := ⟨fun s => encode s.draft⟩

end SourceReport
