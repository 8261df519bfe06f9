import SourceReport.Layout.Width
import SourceReport.Report.Margin

/-!
# Headers, notes and locators

The rows of a report that stand outside the snippets.

* `headerRows` shows level, code and message; the further rows of the message hang below the first
  one (`headerIndent`).
* `noteRows` shows the notes, each after a bullet, with its further rows below the text of the
  first one.
* `locatorRow` names a source and the location in it.
-/

namespace SourceReport

namespace Diagnostic

/-- The level and the code in brackets. -/
def title (d : Diagnostic) : Text :=
  match d.code with
  | some (c :: code) => d.levelName ++ "[" ++ (c :: code) ++ "]"
  | _ => d.levelName

/-- The rows of the message; an empty message has none. -/
def messageRows (d : Diagnostic) : List Text :=
  match d.message with
  | [] => []
  | message => Text.rows message

end Diagnostic

/-- The column in which the text of the message starts, after a prefix of so many cells. -/
def headerIndent (lead : Nat) (d : Diagnostic) : Nat := lead + d.title.cells Text.usualTab + 2

/-- The rows of the header, the first one after a prefix. -/
def headerRows (theme : Theme) (lead : Text) (d : Diagnostic) : List Row :=
  let first : List Run := match lead with
    | [] => []
    | lead => [⟨lead, none⟩]
  let word : Run := ⟨d.title, some (theme.header d.level)⟩
  match d.messageRows with
  | [] => [{ kind := .header 0, text := first ++ [word] }]
  | row :: more =>
    let indent := Text.spaces (headerIndent (lead.cells Text.usualTab) d)
    { kind := .header 0, text := first ++ [word, ⟨": " ++ row, some theme.headerMessage⟩] }
      :: more.mapIdx fun n row =>
        { kind := .header (n + 1), text := [⟨indent, none⟩, ⟨row, some theme.headerMessage⟩] }

/-- What stands between the bullet of a note and its text. -/
def noteWord : Text := " note: "

/-- The rows of a note whose bullet stands in a column. -/
def noteRowsOf (pen : Pen) (column index : Nat) (note : Text) : List Row :=
  let bullet := pen.glyphs.bullet
  let indent := Text.spaces (column + bullet.length + noteWord.length)
  match Text.rows note with
  | [] => []
  | row :: more =>
    { kind := .note index 0
      gutter := [⟨Text.spaces column, none⟩, ⟨bullet, some pen.settings.theme.noteBullet⟩]
      text := [⟨noteWord ++ row, none⟩] }
      :: more.mapIdx fun n row =>
        { kind := .note index (n + 1), text := [⟨indent ++ row, none⟩] }

/-- The rows of the notes whose bullets stand in a column. -/
def noteRows (pen : Pen) (column : Nat) (notes : List Text) : List Row :=
  notes.zipIdx.flatMap fun (note, index) => noteRowsOf pen column index note

/-- The row that names a source. -/
def locatorRow (pen : Pen) (isFirst : Bool) (s : Snippet) : Row where
  kind := .locator
  gutter := [
    ⟨Text.spaces pen.digits, none⟩,
    ⟨if isFirst then pen.glyphs.locator else pen.glyphs.locatorMore,
      some pen.settings.theme.sourceBorder⟩]
  text := [⟨" " ++ s.locatorText, none⟩]

end SourceReport
