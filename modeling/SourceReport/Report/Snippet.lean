import SourceReport.Layout.Lanes
import SourceReport.Layout.Window
import SourceReport.Settings.Basic
import SourceReport.Source.Registry
import SourceReport.Style.Palette

/-!
# Snippets

A report shows the sources of a diagnostic one after the other. A `Snippet` is what it shows of one
of them: the labels in place, the lines, the lanes, and the location named above them. A source that
is not registered has none of these, which is an issue for every label in it.

* `Snippet.ofDiagnostic` lists the snippets of a diagnostic, `Snippet.issues` their issues.
* `labelStyles` gives every label its style: its own color, one from the palette, or that of the
  theme.
-/

namespace SourceReport

/-- What a report shows of a source. -/
structure Snippet where
  file : SourceId
  /-- The name that the source is shown under. -/
  name : Text
  source : Option Source
  labels : List Placement := []
  location : Option Location := none
  window : Window := []
  lanes : Lanes := []

namespace Snippet

/-- The labels of a diagnostic that point into a source, with their indices. -/
def labelsOf (d : Diagnostic) (file : SourceId) : List (Label × Nat) :=
  d.labels.zipIdx.filter fun e => e.1.file = file

/-- The place that a snippet names: that of the diagnostic's location if it has one in this source,
and otherwise the start of the first primary label, or of the first label if none is primary. -/
def locate (d : Diagnostic) (file : SourceId) (s : Source) (labels : List Placement) :
    Option Location :=
  match d.location.filter (·.file = file) with
  | some l => l.offset.bind fun offset => (s.location? (s.floorBoundary offset)).toOption
  | none =>
    let first := (labels.find? (·.label.emphasis = .primary)).or labels.head?
    first.bind fun p => (s.location? p.start).toOption

/-- The snippet of a source. -/
def ofFile (settings : Settings) (registry : Registry) (d : Diagnostic) (file : SourceId) :
    Snippet :=
  let name := registry.display file
  match registry.source? file with
  | none => { file := file, name := name, source := none }
  | some s =>
    let labels := (labelsOf d file).map fun (label, index) => .ofLabel s index label
    let lines := visibleLines labels s.lineCount settings.linesBefore settings.linesAfter
    { file := file
      name := name
      source := some s
      labels := labels
      location := locate d file s labels
      window := .ofLines settings.gapThreshold lines
      lanes := .assign labels }

/-- The snippets of a diagnostic. -/
def ofDiagnostic (settings : Settings) (registry : Registry) (d : Diagnostic) : List Snippet :=
  d.files.map (ofFile settings registry d)

/-- The issues of a source: the repairs of its labels, or that it is missing. -/
def issues (registry : Registry) (d : Diagnostic) (file : SourceId) : List Issue :=
  let labels := labelsOf d file
  match registry.source? file with
  | some s => labels.flatMap fun (label, index) => Placement.issues s index label
  | none =>
    match labels with
    | [] => [⟨file, none, .unregistered⟩]
    | _ => labels.map fun (_, index) => ⟨file, some index, .unregistered⟩

/-- The name of the source and the location in it. -/
def locatorText (s : Snippet) : Text :=
  match s.location with
  | none => s.name
  | some l => s.name ++ ":" ++ l.display

/-- The number of the last line shown; 1 if there is none. -/
def lastNumber (s : Snippet) : Nat := (s.window.lastLine?.map (· + 1)).getD 1

end Snippet

/-- The styles of labels, with a palette for those without a color of their own. -/
def stylesFrom (settings : Settings) (level : Level) : Palette → List Label → List Style
  | _, [] => []
  | p, l :: rest =>
    match l.color with
    | some c => .colored c :: stylesFrom settings level p rest
    | none =>
      if settings.palette then
        .colored (.indexed p.next.color) :: stylesFrom settings level p.next rest
      else settings.theme.label level l.emphasis :: stylesFrom settings level p rest

/-- The styles of the labels of a diagnostic, in the order of their declaration. -/
def labelStyles (settings : Settings) (d : Diagnostic) : List Style :=
  stylesFrom settings d.level .default d.labels

end SourceReport
