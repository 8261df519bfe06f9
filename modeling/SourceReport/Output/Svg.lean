import SourceReport.Output.Html
import SourceReport.Text.Integer

/-!
# Images

A report in HTML inside an image of its own, with a theme for the classes of the markup. The height
of the image is that of its lines of text and the padding above and below them.
-/

namespace SourceReport.Svg

/-- The measures of an image in pixels. -/
structure Measures where
  width : Int := 882
  fontSize : Int := 12
  lineSpacing : Int := 3
  padding : Int := 10

/-- The hexadecimal forms of a named color: the normal one and the bright one. -/
def themeColors : List (Text × Text × Text) := [
  ("black", "#1d1f21", "#969896"), ("red", "#cc6666", "#cc6666"),
  ("green", "#b5bd68", "#b5bd68"), ("yellow", "#f0c674", "#f0c674"),
  ("blue", "#81a2be", "#81a2be"), ("magenta", "#b294bb", "#b294bb"),
  ("cyan", "#8abeb7", "#8abeb7"), ("white", "#c5c8c6", "#ffffff")]

/-- The rules of a named color in one of its places. -/
def colorRules (g : Html.Ground) (color : Text × Text × Text) : List Text :=
  let (name, normal, bright) := color
  let rule (selector hex : Text) : Text :=
    "    pre ." ++ g.className ++ "." ++ selector ++ " \x7b " ++ g.property ++ ": " ++ hex
      ++ "; \x7d"
  [rule name normal, rule (name ++ ".bright") bright]

/-- The rules of all named colors. -/
def allRules : List Text :=
  [Html.Ground.foreground, .background].flatMap fun g => themeColors.flatMap (colorRules g)

/-- The number of lines of a text. -/
def lineCount (body : Text) : Nat := body.count ('\n' : CodePoint) + 1

/-- The height of the image of a text. -/
def height (m : Measures) (body : Text) : Int :=
  m.padding + lineCount body * (m.fontSize + m.lineSpacing) + m.padding

/-- The lines before the rules of the named colors. -/
def opening (m : Measures) (height : Int) : List Text := [
  "<svg viewBox=\"0 0 " ++ Text.ofInt m.width ++ " " ++ Text.ofInt height
    ++ "\" xmlns=\"http://www.w3.org/2000/svg\">",
  "  <style>",
  "    pre \x7b",
  "      background: #1d1f21;",
  "      margin: 0;",
  "      padding: " ++ Text.ofInt m.padding ++ "px;",
  "      border-radius: 6px;",
  "      color: #ffffff;",
  "      font: " ++ Text.ofInt m.fontSize
    ++ "px SFMono-Regular, Consolas, Liberation Mono, Menlo, monospace;",
  "    \x7d",
  "",
  "    pre .bold \x7b font-weight: bold; \x7d",
  "    pre .underline \x7b text-decoration: underline; \x7d",
  ""]

/-- The lines after the rules, with the text. -/
def closing (m : Measures) (height : Int) (body : Text) : List Text := [
  "  </style>",
  "",
  "  <foreignObject x=\"0\" y=\"0\" width=\"" ++ Text.ofInt m.width ++ "\" height=\""
    ++ Text.ofInt height ++ "\">",
  "    <div xmlns=\"http://www.w3.org/1999/xhtml\">",
  "      <pre>" ++ body ++ "</pre>",
  "    </div>",
  "  </foreignObject>",
  "</svg>",
  ""]

/-- The image of a text in markup. -/
def wrap (m : Measures) (body : Text) : Text :=
  let height := height m body
  Text.join "\n" (opening m height ++ allRules ++ closing m height body)

end SourceReport.Svg
