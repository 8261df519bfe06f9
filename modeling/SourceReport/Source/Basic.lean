import SourceReport.Source.Boundary
import SourceReport.Source.Error
import SourceReport.Source.Lines
import SourceReport.Source.Name
import SourceReport.Text.Quoted

/-!
# Sources

A source is a text that has a UTF-8 encoding, under a name and an identity. All offsets are counted
in bytes of that encoding; lines and columns are looked up from them.

* An offset at the start of a line belongs to that line, the length of the source to the last one.
* `Source.clear` empties the text; the identity stays what it was.
-/

namespace SourceReport

/-- A text with a surrogate has no encoding; the position counts code points. -/
structure EncodingError where
  position : Nat
deriving DecidableEq

/-- Why a text has no encoding. -/
def EncodingError.reason : Text := "surrogates not allowed"

/-- What is said of the text for some reason. -/
def EncodingError.describe (e : EncodingError) (reason : Text) : Text :=
  "source text is not valid UTF-8 at character " ++ Text.ofNat e.position ++ ": " ++ reason

/-- The message names the position. -/
def EncodingError.message (e : EncodingError) : Text := e.describe reason

/-- A source buffer. -/
structure Source where
  name : SourceName
  content : Text
  /-- No surrogate occurs in the text. -/
  encodable : content.loneSurrogate? = none
  id : SourceId
  /-- Whether the text has been cleared. -/
  dirty : Bool
deriving DecidableEq

/-- A place for people: line and column counted from 1, columns in characters. -/
structure Location where
  line : Nat
  column : Nat
deriving DecidableEq

/-- Line and column with a colon between them. -/
def Location.display (l : Location) : Text := Text.ofNat l.line ++ ":" ++ Text.ofNat l.column

namespace Source

/-- The source with a name and a text that has an encoding. -/
def ofEncodable (name : SourceName) (content : Text) (h : content.loneSurrogate? = none) : Source :=
  ⟨name, content, h, .of name content, false⟩

/-- The source with a name and a text, if that has an encoding. -/
def ofText? (name : SourceName) (content : Text) : Except EncodingError Source :=
  match h : content.loneSurrogate? with
  | some position => .error ⟨position⟩
  | none => .ok (.ofEncodable name content h)

/-- The source without its text. -/
def clear (s : Source) : Source := { s with content := [], encodable := rfl, dirty := true }

/-- The length in bytes. -/
def length (s : Source) : Nat := s.content.utf8Length

/-- The lines in order; there is at least one. -/
def lines (s : Source) : List Line := Line.list s.content

/-- The number of lines. -/
def lineCount (s : Source) : Nat := s.lines.length

/-- The offsets at which lines start. -/
def lineStarts (s : Source) : List Nat := s.lines.map (·.offset)

/-- A short description. -/
def summary (s : Source) : Text :=
  "SourceText(path=" ++ s.name.display.quoted ++ ", length=" ++ Text.ofNat s.length
    ++ ", lines=" ++ Text.ofNat s.lineCount ++ ")"

/-! ## Lines -/

/-- The line with an index. -/
def line? (s : Source) (index : Int) : Except LookupError Line :=
  match index with
  | .ofNat n =>
    match s.lines[n]? with
    | some line => .ok line
    | none => .error (LookupError.lineTooLarge index (s.lineCount - 1)).built
  | .negSucc _ => .error (LookupError.lineTooLarge index (s.lineCount - 1)).built

/-- The last line that starts at or before an offset. -/
def lineFrom (s : Source) (offset : Nat) : Line :=
  (s.lines.reverse.find? (·.offset ≤ offset)).getD ⟨0, 0, []⟩

/-- The line of an offset inside the source. -/
def lineAt? (s : Source) (offset : Int) : Option Line :=
  if 0 ≤ offset ∧ offset ≤ s.length then some (s.lineFrom offset.toNat) else none

/-- The line of an offset. -/
def lineOf? (s : Source) (offset : Int) : Except LookupError Line :=
  match s.lineAt? offset with
  | some line => .ok line
  | none => .error (LookupError.indexTooLarge offset s.length).built

/-- First and last line that a range of bytes touches. A range that ends where a line starts does
not touch that line; an empty range touches the line of its start. -/
def lineRange? (s : Source) (start stop : Int) : Except LookupError (Nat × Nat) := do
  let first ← s.lineOf? start
  let last ← s.lineOf? (max (stop - 1) start)
  return (first.index, last.index)

/-! ## Character boundaries -/

/-- Whether an offset lies between two characters or at an end. -/
def isBoundary (s : Source) (offset : Int) : Bool :=
  match offset with
  | .ofNat n => s.content.isBoundary n
  | .negSucc _ => false

/-- Refuses an offset that is no boundary. -/
def checkBoundary (s : Source) (offset : Int) : Except LookupError Unit :=
  if (s.length : Int) < offset then .error (LookupError.indexTooLarge offset s.length).built
  else if s.isBoundary offset then .ok () else .error (LookupError.insideCharacter offset).built

/-- The last boundary at or before an offset. -/
def floorBoundary (s : Source) (offset : Int) : Nat := s.content.floorBoundary offset.toNat

/-- The text between two boundaries; it is empty if the second one comes first. -/
def slice? (s : Source) (start stop : Int) : Except LookupError Text := do
  s.checkBoundary start
  s.checkBoundary stop
  return (s.content.dropBytes start.toNat).takeBytes (stop - start).toNat

/-! ## Columns -/

/-- The number of characters between the start of a line and an offset in it. -/
def columnIn? (s : Source) (index offset : Int) : Except LookupError Nat := do
  let line ← s.line? index
  if offset < line.offset ∨ (line.stop : Int) < offset then
    .error (LookupError.columnTooLarge (offset - line.offset) line.length).built
  else if s.isBoundary offset then
    .ok (line.raw.takeBytes (offset - line.offset).toNat).length
  else .error (LookupError.insideCharacter offset).built

/-- The place of an offset. -/
def location? (s : Source) (offset : Int) : Except LookupError Location := do
  let line ← s.lineOf? offset
  let column ← s.columnIn? line.index offset
  return ⟨line.index + 1, column + 1⟩

end Source

end SourceReport
