import SourceReport.Diagnostic.Basic
import SourceReport.Document.Fields
import SourceReport.Settings.Reader

/-!
# Reading documents

A document lists sources and the diagnostics in them. Sources are read first; diagnostics refer to
them by their names or paths.

* `Sources.read` registers a source: a text under a name, or a file, shown under its name or the
  path as it is written.
* `readDiagnostic` reads a diagnostic with its labels.
* `Document.ofTable` reads a whole document.
-/

namespace SourceReport

open Data (Value Table)

/-- The sources of a document and the names by which diagnostics refer to them. -/
structure Sources where
  registry : Registry := .empty
  names : List (Text × SourceId) := []

namespace Sources

/-- Registers a text or a file. -/
def add (s : Sources) (source : Source) : Loading (SourceId × Sources) :=
  match s.registry.insert source false none with
  | .error e => { outcome := .error (.collision e) }
  | .ok (id, registry) => .ok (id, { s with registry := registry })

/-- Registers a text under a name. -/
def addText (s : Sources) (place name text : Text) : Loading (SourceId × Sources) :=
  match Source.ofText? (.snippet name) text with
  | .error _ => .refuse (place ++ ".text") (.surrogates name)
  | .ok source => s.add source

/-- Registers a file, to be shown under another name. -/
def addFile (s : Sources) (tree : Tree) (path shown : Path) : Loading (SourceId × Sources) :=
  match Path.nameError? path.toText with
  | some e => { outcome := .error (.fileName e) }
  | none =>
    match tree.readSource? path with
    | .error e => { outcome := .error (.source e) }
    | .ok source => do
      let (id, s) ← s.add source
      return (id, { s with registry := (s.registry.showAs id (.file shown)).getD s.registry })

/-- Makes names stand for a source, unless one of them stands for another one. -/
def bind (s : Sources) (place : Text) (id : SourceId) : List Text → Loading Sources
  | [] => .ok s
  | name :: rest =>
    if s.names.lookup name |>.all (· = id) then
      bind { s with names := (name, id) :: s.names } place id rest
    else .refuse place (.repeatedName name)

/-- Reads a source. Paths are relative to a directory. -/
def read (tree : Tree) (directory : Path) (s : Sources) (f : Fields) : Loading Sources := do
  let path ← f.optional "path" .text
  let name ← f.optional "name" .text
  let text ← f.optional "text" .text
  match text, path with
  | some text, path =>
    match name.or path with
    | none => .refuse f.place .nameless
    | some name =>
      let (id, s) ← s.addText f.place name text
      s.bind f.place id (name :: path.toList)
  | none, some path =>
    let shown := match name with
      | some (c :: name) => c :: name
      | _ => path
    let (id, s) ← s.addFile tree (directory / Path.ofText path) (.ofText shown)
    s.bind f.place id (name.toList ++ [path])
  | none, none => .refuse f.place .empty

/-- The source that a part of a diagnostic refers to. -/
def reference (s : Sources) (f : Fields) : Loading SourceId := do
  let name ← f.require "source" .text
  match s.names.lookup name with
  | some id => return id
  | none => .refuse f.place (.unknownSource name)

end Sources

/-- Reads sources in order. -/
def readSources (tree : Tree) (directory : Path) : Sources → List Fields → Loading Sources
  | s, [] => .ok s
  | s, f :: rest => do readSources tree directory (← s.read tree directory f) rest

/-- Reads the emphasis of a label. -/
def readEmphasis (f : Fields) : Loading Emphasis := do
  match ← f.optional "style" .text with
  | none | some [] => return .primary
  | some word =>
    match Emphasis.ofName? word.trim.toLower with
    | some e => return e
    | none => .refuse f.place (.unknownEmphasis word)

/-- What is said of a span that ends before it starts. -/
def reversed (place : Text) (start stop : Int) : Except DigitLimitError Text := do
  return place ++ ": end " ++ (← Text.writeInt stop) ++ " before start " ++ (← Text.writeInt start)
    ++ "; using an empty span"

/-- Reads the span of a label; without an end it is empty. -/
def readSpan (s : Sources) (f : Fields) : Loading Span := do
  let file ← s.reference f
  let start ← f.require "start" .int
  let stop := (← f.optional "end" .int).getD start
  if stop < start then
    Loading.warn (reversed f.place start stop)
  return file.range start stop

/-- Reads a label. -/
def readLabel (s : Sources) (f : Fields) : Loading Label := do
  let span ← readSpan s f
  let emphasis ← readEmphasis f
  let color := (Section.mk f.place f.table).color "color"
  color.warnings.forM fun w => Loading.warn w.message
  let message ← f.optional "message" .text
  let order ← f.optional "order" .int
  let priority ← f.optional "priority" .int
  return {
    span := span
    message := message
    color := color.value
    order := order.getD 0
    priority := priority
    emphasis := emphasis }

/-- The level of a word; a word for none of them names a custom level. -/
def levelOf (word : Text) : Level × Option Text :=
  match word with
  | [] => (.error, none)
  | word =>
    match Level.ofName? word.trim.toLower with
    | some l => (l, none)
    | none => (.custom, some word.trim)

/-- Reads the notes: one text, or a list of texts. -/
def readNotes (f : Fields) : Loading (List Text) :=
  match f.table.find? "notes" with
  | none => .ok []
  | some (.text note) => .ok [note]
  | some (.list vs) =>
    match FieldKind.text.all? vs with
    | some notes => .ok notes
    | none => .refuse f.place .notes
  | some _ => .refuse f.place .notes

/-- Reads the location of a diagnostic. -/
def readLocation (s : Sources) (f : Fields) : Loading (Option Locator) :=
  match f.table.present? "location" with
  | none => .ok none
  | some (.table t) => do
    let inner : Fields := ⟨f.place ++ ".location", t⟩
    let file ← s.reference inner
    let offset ← inner.optional "offset" .int
    return some ⟨file, offset⟩
  | some _ => .refuse f.place .location

/-- Reads a diagnostic. -/
def readDiagnostic (s : Sources) (f : Fields) : Loading Diagnostic := do
  let (level, customName) := levelOf ((← f.optional "severity" .text).getD [])
  let message := (← f.optional "message" .text).getD []
  let code ← f.optional "code" .text
  let labels ← (← f.tables (f.place ++ ".") "labels").mapM (readLabel s)
  let notes ← readNotes f
  let location ← readLocation s f
  return {
    level := level
    message := message
    code := code
    labels := labels
    notes := notes
    location := location
    customName := customName }

/-- The sources and diagnostics of a document. -/
structure Document where
  registry : Registry
  diagnostics : List Diagnostic

namespace Document

/-- Reads a document from a table. -/
def ofTable (tree : Tree) (directory : Path) (t : Table) : Loading Document := do
  let f : Fields := ⟨"document", t⟩
  let s ← readSources tree directory {} (← f.tables [] "sources")
  let diagnostics ← (← f.tables [] "diagnostics").mapM (readDiagnostic s)
  return ⟨s.registry, diagnostics⟩

/-- Reads a document from any value. -/
def ofValue (tree : Tree) (directory : Path) : Value → Loading Document
  | .table t => ofTable tree directory t
  | _ => .refuse "document" .noTable

end Document

end SourceReport
