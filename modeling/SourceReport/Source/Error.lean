import SourceReport.Text.Integer

/-!
# Failed look-ups

Why an offset, a line or a column of a source cannot be looked up. The causes carry the number that
was given and the largest one admitted.

* An error is built with its message, which names these numbers (`LookupError.write`). If one of
  them has too many digits to be written, this is what the look-up fails with
  (`LookupError.built`).
-/

namespace SourceReport

/-- Why a place of a source cannot be looked up. -/
inductive LookupError where
  /-- A byte offset outside the source. -/
  | indexTooLarge (given : Int) (max : Nat)
  /-- A line that the source does not have. -/
  | lineTooLarge (given : Int) (max : Nat)
  /-- A column outside its line. -/
  | columnTooLarge (given : Int) (max : Nat)
  /-- A byte offset inside a character. -/
  | insideCharacter (given : Int)
  /-- One of the above, with a number that has too many digits to be named. -/
  | digits (e : DigitLimitError)
deriving DecidableEq

/-- Writes the message of the errors that name a bound. -/
def boundMessage (what : Text) (given : Int) (max : Nat) : Except DigitLimitError Text := do
  return "invalid " ++ what ++ ": given " ++ (← Text.writeInt given) ++ ", max "
    ++ (← Text.writeInt max)

namespace LookupError

/-- Writes a failed look-up in words. -/
def write : LookupError → Except DigitLimitError Text
  | .indexTooLarge given max => boundMessage "byte index" given max
  | .lineTooLarge given max => boundMessage "line index" given max
  | .columnTooLarge given max => boundMessage "column" given max
  | .insideCharacter given => do
    return "byte index " ++ (← Text.writeInt given) ++ " is not on a character boundary"
  | .digits e => .error e

/-- A failed look-up in words. -/
def message (e : LookupError) : Text :=
  match e.write with
  | .ok message => message
  | .error e => e.message

/-- The error that is built for a cause: the cause itself if its message can be written. -/
def built (cause : LookupError) : LookupError :=
  match cause.write with
  | .ok _ => cause
  | .error e => .digits e

end LookupError

end SourceReport
