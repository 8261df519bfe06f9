import SourceReport.Report.Body

/-!
# Reports

The report of a diagnostic: its rows and the issues that came up. It needs the settings and the
sources, and nothing of other reports.

* A rich report shows the header, the snippets and the notes; a medium one has the location in
  front of the header in place of the snippets; a short one is a medium one without notes.
* `Report.ofAll` puts the reports of several diagnostics together, with an empty row between rich
  ones.
-/

namespace SourceReport

/-- What is shown of diagnostics. -/
structure Report where
  rows : List Row
  issues : List Issue

namespace Report

/-- The number of digits of the largest line number in the snippets. -/
def digits (snippets : List Snippet) : Nat :=
  (snippets.map fun s => (Text.ofNat s.lastNumber).length).foldl max 1

/-- The rows of a rich report. -/
def richRows (pen : Pen) (d : Diagnostic) (snippets : List Snippet) : List Row :=
  headerRows pen.settings.theme [] d ++ Snippet.allRows pen snippets
    ++ noteRows pen (pen.digits + 1) d.notes

/-- The location in front of a report without snippets. -/
def lead (snippets : List Snippet) : Text :=
  match snippets with
  | [] => []
  | s :: _ => s.locatorText ++ ": "

/-- The rows of a report without snippets. -/
def briefRows (pen : Pen) (d : Diagnostic) (snippets : List Snippet) (withNotes : Bool) :
    List Row :=
  headerRows pen.settings.theme (lead snippets) d
    ++ if withNotes then noteRows pen 1 d.notes else []

/-- The report of a diagnostic. -/
def ofDiagnostic (settings : Settings) (registry : Registry) (d : Diagnostic) : Report :=
  let snippets := Snippet.ofDiagnostic settings registry d
  let pen : Pen := ⟨settings, labelStyles settings d, digits snippets⟩
  { rows := match settings.detail with
      | .rich => richRows pen d snippets
      | .medium => briefRows pen d snippets true
      | .short => briefRows pen d snippets false
    issues := d.files.flatMap (Snippet.issues registry d) }

/-- The rows between two reports. -/
def separation (settings : Settings) : List Row :=
  match settings.detail with
  | .rich => [{ kind := .separator }]
  | _ => []

/-- Reports one after the other. -/
def concat (settings : Settings) (reports : List Report) : Report where
  rows := List.intercalate (separation settings) (reports.map (·.rows))
  issues := reports.flatMap (·.issues)

/-- The reports of several diagnostics. -/
def ofAll (settings : Settings) (registry : Registry) (ds : List Diagnostic) : Report :=
  concat settings (ds.map (ofDiagnostic settings registry))

end Report

end SourceReport
