import SourceReport.Text.Basic

/-!
# Help pages

The page of a command: its usage, what it does, and its options in two columns, eighty characters
wide.
-/

namespace SourceReport

/-- The help page of a command. -/
structure HelpPage where
  /-- The program and the command as they are called. -/
  called : Text
  /-- What follows in a call. -/
  parameters : Text
  /-- The lines below the usage. -/
  lines : List Text

namespace HelpPage

/-- The line with the usage. -/
def usage (p : HelpPage) : Text := "Usage: " ++ p.called ++ " " ++ p.parameters

/-- The page as it is shown. -/
def text (p : HelpPage) : Text := Text.join "\n" (p.usage :: p.lines)

/-- Where to find the page. -/
def hint (p : HelpPage) : Text := "Try '" ++ p.called ++ " -h' for help."

/-- The page of the program. -/
def program : HelpPage where
  called := "cli"
  parameters := "[OPTIONS] COMMAND [ARGS]..."
  lines := [
    "",
    "  SpanMark: render compiler-style diagnostics over source text.",
    "",
    "Options:",
    "  -q, --quiet        Suppress warnings and summaries.",
    "  -v, --verbose      Increase verbosity. Specify up to three times for more",
    "                     detail.",
    "  --no-color         Disable color output (equivalent to --color=never).",
    "  --color COLORMODE  Color output: auto (default), always, or never.",
    "  -h, --help         Show this message and exit.",
    "",
    "Commands:",
    "  locate   Show the line/column and LSP position of a byte OFFSET in FILE,...",
    "  render   Render the diagnostics in DOCUMENT (a TOML or JSON file).",
    "  version  Show the current version of SpanMark."]

/-- The page of the command that renders reports. -/
def render : HelpPage where
  called := "cli render"
  parameters := "[OPTIONS] DOCUMENT"
  lines := [
    "",
    "  Render the diagnostics in DOCUMENT (a TOML or JSON file).",
    "",
    "  Configuration is read from spanmark.toml, or from [tool.spanmark] in",
    "  pyproject.toml, found next to DOCUMENT or in a parent directory.",
    "",
    "Options:",
    "  --context INTEGER RANGE         Context lines before and after multi-line",
    "                                  label endpoints.  [x>=0]",
    "  --compact / --no-compact        Omit the empty gutter rows around snippets.",
    "  --tab-width INTEGER RANGE       Tab stop width in cells.  [x>=0]",
    "  --attach LABELATTACH            Where label connectors attach (start, middle,",
    "                                  end).",
    "  --style DISPLAYSTYLE            Amount of detail (rich, medium, short).",
    "  --charset CHARSET               Glyph set (unicode, ascii).",
    "  --no-config                     Ignore spanmark.toml / pyproject.toml and use",
    "                                  the defaults.",
    "  --config FILE                   Read configuration from this TOML file instead",
    "                                  of discovering one.",
    "  --format RENDERFORMAT           Output format (text, html, svg). Default:",
    "                                  text.",
    "  -o, --output FILE               Write the output to this file instead of",
    "                                  stdout.",
    "  --fail-on [info|warning|error|fatal]",
    "                                  Exit with status 1 if any diagnostic is at",
    "                                  least this severe.",
    "  -h, --help                      Show this message and exit."]

/-- The page of the command that looks places up. -/
def locate : HelpPage where
  called := "cli locate"
  parameters := "[OPTIONS] FILE [OFFSET]"
  lines := [
    "",
    "  Show the line/column and LSP position of a byte OFFSET in FILE, or the byte",
    "  offset of an LSP --position.",
    "",
    "Options:",
    "  --position LINE:CHARACTER  Zero-based LSP position (UTF-16 columns) to convert",
    "                             to a byte offset.",
    "  --format OUTPUTFORMAT      Output format (text, json).",
    "  -h, --help                 Show this message and exit."]

/-- The page of the command that tells the version. -/
def version : HelpPage where
  called := "cli version"
  parameters := "[OPTIONS]"
  lines := [
    "",
    "  Show the current version of SpanMark.",
    "",
    "Options:",
    "  --format OUTPUTFORMAT  Output format (text, json).",
    "  -h, --help             Show this message and exit."]

end HelpPage

end SourceReport
