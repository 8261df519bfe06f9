import SourceReport.Data.Value
import SourceReport.Settings.Basic
import SourceReport.Source.Registry

/-!
# Values of the library from data

How the form in which other programs give sources, diagnostics and settings is read. Nothing is
refused: what is missing or of another kind counts as its usual value.

* `Value.field` and its companions take values apart; the functions named `ofData` read the types of
  the library.
-/

namespace SourceReport

open Data (Value)

namespace Data.Value

/-- The entries of a table. -/
def entries (v : Value) : Table := asTable (some v)

/-- The field of a table; null if it has none. -/
def field (v : Value) (key : String) : Value := (v.entries.find? key).getD .null

/-- Whether a table has a field. -/
def has (v : Value) (key : String) : Bool := (v.entries.find? key).isSome

/-- The items of a list. -/
def items : Value → List Value
  | .list xs => xs
  | _ => []

/-- An item of a list; null if it has none. -/
def item (v : Value) (index : Nat) : Value := v.items.getD index .null

/-- An integer. -/
def int? : Value → Option Int
  | .int i => some i
  | _ => none

/-- An integer, or zero. -/
def toInt (v : Value) : Int := v.int?.getD 0

/-- A natural number, or zero. -/
def toNat (v : Value) : Nat := v.toInt.toNat

/-- A truth value. -/
def bool? : Value → Option Bool
  | .bool b => some b
  | _ => none

/-- A truth value, or false. -/
def toBool (v : Value) : Bool := v.bool?.getD false

/-- A text: written as such, or as the only field of a table that lists its code points. -/
def text? : Value → Option Text
  | .text t => some t
  | .table [(_, .list xs)] => some (xs.filterMap fun x => CodePoint.ofNat? x.toNat)
  | _ => none

/-- A text, or the empty one. -/
def toText (v : Value) : Text := v.text?.getD []

/-- A text as a string. -/
def toStr (v : Value) : String := v.toText.toStr

end Data.Value

/-- The name of a source. -/
def SourceName.ofData (v : Value) : SourceName :=
  let value := (v.field "value").toText
  match (v.field "kind").toStr with
  | "snippet" => .snippet value
  | "local" => .file (.ofText value)
  | "remote" => .remote value
  | _ => .anonymous

/-- A color, whether a terminal knows it or not. -/
def Color.ofData? : Value → Option Color
  | .text name => some (.named name)
  | .int n => some (.indexed n)
  | .list [.int r, .int g, .int b] => some (.rgb r g b)
  | _ => none

/-- A style. -/
def Style.ofData (v : Value) : Style where
  foreground := Color.ofData? (v.field "fg")
  background := Color.ofData? (v.field "bg")
  bold := (v.field "bold").toBool
  underline := (v.field "underline").toBool

/-- A style, or another one if there is none. -/
def Style.ofDataOr (otherwise : Style) (v : Value) : Style :=
  match v with
  | .null => otherwise
  | v => .ofData v

/-- The level of a word; an error if it names none. -/
def Level.ofData (v : Value) : Level := (Level.ofName? v.toText).getD .error

/-- The emphasis of a word; primary if it names none. -/
def Emphasis.ofData (v : Value) : Emphasis := (Emphasis.ofName? v.toText).getD .primary

/-! ## Diagnostics

Labels and locations refer to sources by their place in a list. -/

/-- The source at a place of a list. -/
def SourceId.ofData (ids : List SourceId) (v : Value) : SourceId := ids.getD v.toNat ⟨0⟩

/-- A label. -/
def Label.ofData (ids : List SourceId) (v : Value) : Label where
  span := (SourceId.ofData ids (v.field "source")).range (v.field "start").toInt
    (v.field "end").toInt
  message := (v.field "message").text?
  color := Color.ofData? (v.field "color")
  order := (v.field "order").toInt
  priority := (v.field "priority").int?
  emphasis := .ofData (v.field "style")

/-- The location of a diagnostic. -/
def Locator.ofData? (ids : List SourceId) (v : Value) : Option Locator :=
  match v with
  | .table _ => some ⟨.ofData ids (v.field "source"), (v.field "offset").int?⟩
  | _ => none

/-- A diagnostic. -/
def Diagnostic.ofData (ids : List SourceId) (v : Value) : Diagnostic where
  level := .ofData (v.field "severity")
  message := (v.field "message").toText
  code := (v.field "code").text?
  labels := (v.field "labels").items.map (.ofData ids)
  notes := (v.field "notes").items.map (·.toText)
  location := Locator.ofData? ids (v.field "location")
  customName := (v.field "custom_name").text?

/-! ## Settings -/

/-- A theme; headers replace the usual ones all together. -/
def Theme.ofData (v : Value) : Theme :=
  let usual : Theme := {}
  { headers := match v.field "headers" with
      | .table t => .ofFn fun l => (Data.Table.find? t l.name).map .ofData
      | _ => usual.headers
    headerMessage := usual.headerMessage.ofDataOr (v.field "header_message")
    primaryLabel := match v.field "primary_label" with
      | .null => none
      | s => some (.ofData s)
    secondaryLabel := usual.secondaryLabel.ofDataOr (v.field "secondary_label")
    lineNumber := usual.lineNumber.ofDataOr (v.field "line_number")
    sourceBorder := usual.sourceBorder.ofDataOr (v.field "source_border")
    noteBullet := usual.noteBullet.ofDataOr (v.field "note_bullet")
    skipped := usual.skipped.ofDataOr (v.field "skipped") }

/-- The alternative with a key. -/
def Choice.ofData? {α : Type} [Choice α] (v : Value) : Option α :=
  v.text?.bind fun word => (Choice.all : List α).find? fun a => Choice.key a = word

/-- A draft of settings. -/
def Draft.ofData (v : Value) : Draft where
  charSet := Choice.ofData? (v.field "char_set")
  tabWidth := (v.field "tab_width").int?
  color := (v.field "color").bool?
  attach := Choice.ofData? (v.field "label_attach")
  crossGap := (v.field "cross_gap").bool?
  compact := (v.field "compact").bool?
  arrows := (v.field "multiline_arrows").bool?
  linesBefore := (v.field "context_lines_before").int?
  linesAfter := (v.field "context_lines_after").int?
  gapThreshold := (v.field "gap_threshold").int?
  detail := Choice.ofData? (v.field "display_style")
  palette := (v.field "palette").bool?
  theme := match v.field "styles" with
    | .null => none
    | s => some (.ofData s)
  files := (v.field "config_files").items.map (·.toText)
  warnings := (v.field "warnings").items.map (·.toText)

end SourceReport
