import SourceReport.Text.Blank

/-!
# Lines

The lines of a text, each with the terminator that ends it. Terminators are LF, CR, vertical tab,
form feed, NEL and the two Unicode separators; CR LF is one terminator. Every terminator starts a
new line, so the last line has none and a text has one line more than terminators.

* `Text.lines` cuts a text; the lines in order are the text again.
* `Line.list` numbers them and adds up their lengths in bytes.
-/

namespace SourceReport

/-- A code point that ends a line. -/
def CodePoint.isTerminator (c : CodePoint) : Bool :=
  c = '\n' || c = '\r' || c.val = 0x0B || c.val = 0x0C || c.val = 0x85 || c.val = 0x2028
    || c.val = 0x2029

namespace Text

/-- Puts a code point in front of the first line. -/
def pushFront (c : CodePoint) : List Text → List Text
  | [] => [[c]]
  | line :: lines => (c :: line) :: lines

/-- The lines of a text with their terminators. -/
def lines : Text → List Text
  | [] => [[]]
  | [c] => if c.isTerminator then [[c], []] else [[c]]
  | c :: d :: rest =>
    if c = '\r' ∧ d = '\n' then [c, d] :: lines rest
    else if c.isTerminator then [c] :: lines (d :: rest)
    else pushFront c (lines (d :: rest))

end Text

/-- A line of a source. -/
structure Line where
  /-- Counted from 0. -/
  index : Nat
  /-- The offset of its first byte. -/
  offset : Nat
  /-- Its text with the terminator. -/
  raw : Text
deriving DecidableEq

namespace Line

/-- The number of bytes, the terminator included. -/
def length (l : Line) : Nat := l.raw.utf8Length

/-- The offset after the last byte. -/
def stop (l : Line) : Nat := l.offset + l.length

/-- The text without the terminator and the blanks before it. -/
def content (l : Line) : Text := l.raw.trimEnd

/-- Numbers lines from an index and an offset on. -/
def listFrom (index offset : Nat) : List Text → List Line
  | [] => []
  | raw :: rest => ⟨index, offset, raw⟩ :: listFrom (index + 1) (offset + raw.utf8Length) rest

/-- The lines of a text. -/
def list (t : Text) : List Line := listFrom 0 0 t.lines

end Line

end SourceReport
