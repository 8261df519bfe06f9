import SourceReport.Settings.Choice

/-!
# Output formats

The formats in which commands answer: information as text or JSON, reports as text or markup.
-/

namespace SourceReport

/-- The format of information. -/
inductive OutputFormat where
  | text
  | json
deriving DecidableEq

instance : Choice OutputFormat where
  title := "outputformat"
  all := [.text, .json]
  key
    | .text => "text"
    | .json => "json"
  label
    | .text => "Human-readable text"
    | .json => "A single JSON object"
  aliases
    | .text => ["plain"]
    | .json => []

/-- The format of a report. -/
inductive RenderFormat where
  | text
  | html
  | svg
deriving DecidableEq

instance : Choice RenderFormat where
  title := "renderformat"
  all := [.text, .html, .svg]
  key
    | .text => "text"
    | .html => "html"
    | .svg => "svg"
  label
    | .text => "Terminal text, ANSI-colored when color is enabled"
    | .html => "HTML-escaped text in styled <span> elements"
    | .svg => "Standalone SVG image embedding the HTML output"
  aliases
    | .text => ["ansi", "plain"]
    | _ => []

end SourceReport
