import SourceReport.Data.Value
import SourceReport.Decimal.Shortest
import SourceReport.Text.Quoted

/-!
# Values in messages

The notation of a value inside a message: texts in quotes, floats with the fewest digits that read
back, lists in brackets and tables in braces, dates and times by their parts.

* `Value.literal` is the notation, `Value.write` refuses integers of too many digits.
-/

namespace SourceReport.Data

/-- The parts of a time that are written: seconds and microseconds only as far as they count. -/
def Time.parts (t : Time) : List Nat :=
  if t.microsecond ≠ 0 then [t.hour, t.minute, t.second, t.microsecond]
  else if t.second ≠ 0 then [t.hour, t.minute, t.second]
  else [t.hour, t.minute]

/-- Numbers with a comma and a space between them. -/
def commaSeparated (ns : List Nat) : Text := Text.join ", " (ns.map Text.ofNat)

/-- A span of time in days and seconds, the seconds never negative. -/
def durationLiteral (minutes : Int) : Text :=
  let seconds := minutes * 60
  let days := seconds.fdiv 86400
  let rest := seconds.fmod 86400
  let parts : List Text :=
    (if days = 0 then [] else ["days=" ++ Text.ofInt days])
      ++ (if rest = 0 then [] else ["seconds=" ++ Text.ofInt rest])
  "datetime.timedelta(" ++ Text.join ", " (if parts.isEmpty then ["0"] else parts) ++ ")"

/-- An offset from universal time. -/
def Offset.literal (o : Offset) : Text :=
  "datetime.timezone(" ++ durationLiteral o.minutes ++ ", " ++ o.name.quoted ++ ")"

mutual

/-- A value as it is written in a message. -/
def Value.literal : Value → Text
  | .null => "None"
  | .bool b => if b then "True" else "False"
  | .int i => Text.ofInt i
  | .float x => Decimal.ofFloat x
  | .text t => t.quoted
  | .date d => "datetime.date(" ++ commaSeparated [d.year, d.month, d.day] ++ ")"
  | .time t => "datetime.time(" ++ commaSeparated t.parts ++ ")"
  | .dateTime d t offset =>
    "datetime.datetime(" ++ commaSeparated ([d.year, d.month, d.day] ++ t.parts)
      ++ (match offset with
        | none => ""
        | some o => ", tzinfo=" ++ o.literal)
      ++ ")"
  | .list items => "[" ++ Text.join ", " (itemLiterals items) ++ "]"
  | .table entries => "\x7b" ++ Text.join ", " (entryLiterals entries) ++ "\x7d"

/-- The items of a list as they are written. -/
def itemLiterals : List Value → List Text
  | [] => []
  | v :: rest => v.literal :: itemLiterals rest

/-- The entries of a table as they are written. -/
def entryLiterals : List (Text × Value) → List Text
  | [] => []
  | (k, v) :: rest => (k.quoted ++ ": " ++ v.literal) :: entryLiterals rest

end

/-! ## Integers that cannot be written -/

mutual

/-- Whether no integer in a value has too many digits to be written. -/
def Value.isWritable : Value → Bool
  | .int i => Text.isWritable i
  | .list items => itemsWritable items
  | .table entries => entriesWritable entries
  | _ => true

/-- Whether no integer in the items has too many digits. -/
def itemsWritable : List Value → Bool
  | [] => true
  | v :: rest => v.isWritable && itemsWritable rest

/-- Whether no integer in the entries has too many digits. -/
def entriesWritable : List (Text × Value) → Bool
  | [] => true
  | (_, v) :: rest => v.isWritable && entriesWritable rest

end

/-- Writes a value for a message, unless an integer in it has too many digits. -/
def Value.write (v : Value) : Except DigitLimitError Text :=
  if v.isWritable then .ok v.literal else .error .writing

end SourceReport.Data
