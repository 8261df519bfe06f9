import SourceReport.Source.Basic
import SourceReport.Source.Span

/-!
# Editor positions

Editors name a place by its line and by the number of UTF-16 units before it in the line, both
counted from 0. `Source.positionOf?` finds the position of an offset and `Source.offsetOf?` the
offset of a position. A position may stand behind the terminator of its line, but not further.
-/

namespace SourceReport

/-- A place in an editor. -/
structure Position where
  line : Int
  /-- UTF-16 units before the place in its line. -/
  character : Int
deriving DecidableEq

/-- The order of positions: by line, then by unit. -/
def Position.before (a b : Position) : Bool :=
  a.line < b.line ∨ (a.line = b.line ∧ a.character < b.character)

/-- A half-open range in an editor. -/
structure PositionRange where
  start : Position
  stop : Position
deriving DecidableEq

/-! ## Notation -/

/-- Line and unit with a colon between them. -/
def Position.display (p : Position) : Text := Text.ofInt p.line ++ ":" ++ Text.ofInt p.character

/-- Why a text is no position. -/
inductive PositionError where
  /-- It is not written like one. -/
  | malformed (t : Text)
  /-- A number in it has too many digits. -/
  | digits (e : DigitLimitError)
deriving DecidableEq

/-- Reads a position: two numbers in decimal digits of any script with a colon between them, and
blanks around each of the three. -/
def Position.ofText? (t : Text) : Except PositionError Position :=
  let (line, rest) := (Text.trimStart t).span (·.isDecimal)
  match Text.trimStart rest with
  | [] => .error (.malformed t)
  | c :: rest =>
    let (character, after) := (Text.trimStart rest).span (·.isDecimal)
    if c ≠ ':' || line.isEmpty || character.isEmpty || after.any (!·.isBlank) then
      .error (.malformed t)
    else
      match Text.readDigits line, Text.readDigits character with
      | .ok m, .ok n => .ok ⟨m, n⟩
      | .error e, _ => .error (.digits e)
      | _, .error e => .error (.digits e)

/-! ## Positions of offsets -/

/-- Walks over whole characters until `target` units are passed; answers the units and bytes
passed. -/
def walkUnits (target : Int) (units bytes : Nat) : Text → Nat × Nat
  | [] => (units, bytes)
  | c :: rest =>
    if target ≤ units then (units, bytes)
    else walkUnits target (units + c.units16) (bytes + c.utf8Width) rest

namespace Source

/-- The position of an offset. -/
def positionOf? (s : Source) (offset : Int) : Except LookupError Position := do
  s.checkBoundary offset
  let line ← s.lineOf? offset
  return ⟨line.index, (line.raw.takeBytes (offset - line.offset).toNat).units16⟩

/-- The offset of a position. -/
def offsetOf? (s : Source) (p : Position) : Except LookupError Nat := do
  let line ← s.line? p.line
  let (units, bytes) := walkUnits p.character 0 0 line.raw
  if (units : Int) < p.character then .error (LookupError.columnTooLarge p.character units).built
  else if p.character < units then
    .error (LookupError.insideCharacter (line.offset + bytes : Nat)).built
  else .ok (line.offset + bytes)

/-- The range of a span. -/
def rangeOf? (s : Source) (span : Span) : Except LookupError PositionRange := do
  let start ← s.positionOf? span.start
  let stop ← s.positionOf? span.stop
  return ⟨start, stop⟩

/-- The span of a range; it is empty if the range ends before it starts. -/
def spanOf? (s : Source) (range : PositionRange) : Except LookupError Span := do
  let start ← s.offsetOf? range.start
  let stop ← s.offsetOf? range.stop
  return s.id.range start stop

end Source

end SourceReport
