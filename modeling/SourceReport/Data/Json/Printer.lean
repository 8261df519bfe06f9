import SourceReport.Data.Value
import SourceReport.Decimal.Shortest

/-!
# Writing JSON

Values on one line, with `, ` between items and `: ` after keys, in ASCII: every other code point is
an escape, those above U+FFFF as a surrogate pair. Dates and times have no JSON form and are written
as null.
-/

namespace SourceReport.Data.Json

/-- An escape with four hexadecimal digits. -/
def unicodeEscape (n : Nat) : Text := "\\u" ++ Text.hexDigits 4 n

/-- How a code point is written inside a JSON string. -/
def escape (c : CodePoint) : Text :=
  if c = '"' then "\\\""
  else if c = '\\' then "\\\\"
  else if c = '\n' then "\\n"
  else if c = '\r' then "\\r"
  else if c = '\t' then "\\t"
  else if c.val = 8 then "\\b"
  else if c.val = 12 then "\\f"
  else if 32 ≤ c.val ∧ c.val < 127 then [c]
  else if c.val ≤ 0xFFFF then unicodeEscape c.val
  else
    let n := c.val - 0x10000
    unicodeEscape (0xD800 + n / 1024) ++ unicodeEscape (0xDC00 + n % 1024)

/-- A JSON string. -/
def printText (t : Text) : Text := "\"" ++ t.flatMap escape ++ "\""

/-- A JSON number for a double; those that JSON lacks by their names. -/
def printFloat (x : Float) : Text :=
  match Decimal.Binary.ofFloat x with
  | .nan => "NaN"
  | .infinite negative => if negative then "-Infinity" else "Infinity"
  | b => b.format

mutual

/-- A value in JSON. -/
def print : Value → Text
  | .null => "null"
  | .bool b => if b then "true" else "false"
  | .int i => Text.ofInt i
  | .float x => printFloat x
  | .text t => printText t
  | .date _ => "null"
  | .time _ => "null"
  | .dateTime .. => "null"
  | .list items => "[" ++ Text.join ", " (printItems items) ++ "]"
  | .table entries => "\x7b" ++ Text.join ", " (printEntries entries) ++ "\x7d"

/-- The items of a list. -/
def printItems : List Value → List Text
  | [] => []
  | v :: rest => print v :: printItems rest

/-- The entries of a table. -/
def printEntries : List (Text × Value) → List Text
  | [] => []
  | (k, v) :: rest => (printText k ++ ": " ++ print v) :: printEntries rest

end

end SourceReport.Data.Json
