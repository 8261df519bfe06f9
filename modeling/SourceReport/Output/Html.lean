import SourceReport.Style.Basic

/-!
# Markup

How styled text is written in HTML: in a `span` element whose classes name the colors and the other
attributes. Colors without a name are given by a declaration of their own.

* `Html.escape` writes a text so that it holds no markup.
* `Html.write` writes a text in a style; plain and empty texts have no element.
-/

namespace SourceReport.Html

/-- How a character is written in text. -/
def escapeChar (c : CodePoint) : Text :=
  if c = '&' then "&amp;" else if c = '<' then "&lt;" else if c = '>' then "&gt;" else [c]

/-- A text without markup. -/
def escape (t : Text) : Text := t.flatMap escapeChar

/-- The two places of a color. -/
inductive Ground where
  | foreground
  | background
deriving DecidableEq

/-- The class of a place. -/
def Ground.className : Ground → Text
  | .foreground => "fg"
  | .background => "bg"

/-- The property of a place. -/
def Ground.property : Ground → Text
  | .foreground => "color"
  | .background => "background-color"

/-- A class that a style has or has not. -/
def classIf (holds : Bool) (name : Text) : List Text := if holds then [name] else []

/-- The classes of a color. -/
def colorClasses (g : Ground) : Color → List Text
  | .named name =>
    let (base, bright) := Color.splitBright name
    [g.className, base] ++ classIf bright "bright"
  | _ => [g.className]

/-- The declaration of a color that has no name. -/
def declaration (g : Ground) : Color → List Text
  | .named _ => []
  | .indexed n => [g.property ++ ": " ++ Color.hexOfIndex n ++ ";"]
  | .rgb r green b => [g.property ++ ": " ++ Color.hexOfParts r green b ++ ";"]

/-- The colors of a style with their places. -/
def grounds (s : Style) : List (Ground × Color) :=
  (s.foreground.map fun c => (Ground.foreground, c)).toList
    ++ (s.background.map fun c => (Ground.background, c)).toList

/-- The classes of a style. -/
def classes (s : Style) : List Text :=
  ((grounds s).flatMap fun (g, c) => colorClasses g c)
    ++ classIf s.bold "bold" ++ classIf s.underline "underline"

/-- The declarations of a style. -/
def declarations (s : Style) : List Text := (grounds s).flatMap fun (g, c) => declaration g c

/-- The opening tag of a style. -/
def openTag (s : Style) : Text :=
  let inline : Text := match declarations s with
    | [] => []
    | ds => " style=\"" ++ Text.join " " ds ++ "\""
  "<span class=\"" ++ Text.join " " (classes s) ++ "\"" ++ inline ++ ">"

/-- A text in a style. -/
def write (s : Style) (t : Text) : Text :=
  if s.isPlain || t.isEmpty then escape t else openTag s ++ escape t ++ "</span>"

end SourceReport.Html
