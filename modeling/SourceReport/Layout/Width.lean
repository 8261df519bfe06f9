import SourceReport.Text.Blank
import SourceReport.Text.Combining
import SourceReport.Text.Format
import SourceReport.Text.Wide

/-!
# Widths

How many cells of a terminal a code point takes. A tab reaches to the next tab stop, so its width
depends on the column it starts in; other blanks take one cell, marks and format characters none,
wide characters two.

* `CodePoint.cells` is the width of a code point in a column, `Text.cellsFrom` that of a text.
* `CodePoint.shown` is what is printed in its place: blanks as spaces, and U+FFFD for the control
  characters, which would move the cursor.
-/

namespace SourceReport

/-- The number of cells that a code point takes if it starts in a column. -/
def CodePoint.cells (tabWidth : Int) (column : Nat) (c : CodePoint) : Nat :=
  if c = '\t' then
    if tabWidth ≤ 0 then 0 else tabWidth.toNat - column % tabWidth.toNat
  else if c.isBlank then 1
  else if c.isCombining || c.isFormat then 0
  else if c.isWide then 2
  else 1

/-- What is printed for a code point that takes a number of cells. -/
def CodePoint.shown (c : CodePoint) (cells : Nat) : Text :=
  if c.isBlank then Text.spaces cells
  else if c.isControl then if cells = 0 then [] else [.replacement]
  else [c]

namespace Text

/-- The column after a text that starts in a column. -/
def columnAfter (tabWidth : Int) (column : Nat) : Text → Nat
  | [] => column
  | c :: rest => columnAfter tabWidth (column + c.cells tabWidth column) rest

/-- The number of cells that a text takes from the first column on. -/
def cells (tabWidth : Int) (t : Text) : Nat := columnAfter tabWidth 0 t

/-- The tab width for texts that are no source lines. -/
def usualTab : Int := 4

end Text

end SourceReport
