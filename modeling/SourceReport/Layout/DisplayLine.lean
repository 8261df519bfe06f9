import SourceReport.Layout.Width

/-!
# Display lines

A source line laid out in cells. Each character of its content has a byte offset, a column and a
printed form; the blanks at the end of the line have none of them.

* `DisplayLine.columnOf` takes a byte column to a cell. A column inside a character counts as that
  of the next one, and every byte after the content as one cell, so that spans of the line's end
  show.
-/

namespace SourceReport

/-- A character of a line laid out in cells. -/
structure LaidOut where
  /-- Bytes before it in the line. -/
  offset : Nat
  /-- The cell in which it starts. -/
  column : Nat
  /-- What is printed in its cells. -/
  shown : Text
deriving DecidableEq

/-- A source line laid out in cells. -/
structure DisplayLine where
  /-- The characters of the content. -/
  chars : List LaidOut
  /-- The length of the content in bytes. -/
  bytes : Nat
  /-- The cell after the content. -/
  width : Nat
deriving DecidableEq

namespace DisplayLine

/-- Lays out a text that starts at an offset and in a column. -/
def layoutFrom (tabWidth : Int) (offset column : Nat) : Text → List LaidOut
  | [] => []
  | c :: rest =>
    let cells := c.cells tabWidth column
    ⟨offset, column, c.shown cells⟩
      :: layoutFrom tabWidth (offset + c.utf8Width) (column + cells) rest

/-- Lays out a source line, given with its terminator. -/
def ofLine (tabWidth : Int) (raw : Text) : DisplayLine :=
  let content := raw.trimEnd
  ⟨layoutFrom tabWidth 0 0 content, content.utf8Length, content.cells tabWidth⟩

/-- The printed form of the line. -/
def text (l : DisplayLine) : Text := l.chars.flatMap (·.shown)

/-- The cell of a byte column. -/
def columnOf (l : DisplayLine) (byteColumn : Int) : Nat :=
  match l.chars.find? (byteColumn ≤ ·.offset) with
  | some c => c.column
  | none => l.width + (byteColumn - l.bytes).toNat

end DisplayLine

end SourceReport
