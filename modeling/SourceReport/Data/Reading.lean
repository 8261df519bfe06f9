import SourceReport.Data.Value
import SourceReport.Text.Integer

/-!
# Reading a format

A reader of a format takes what it needs from the front of a text. It answers what it read and the
rest, or why it stopped (`Stop`). A text is then not of the format, or it is and its contents are
refused: `FormatError.ofStop` tells which, and gives the former a place.
-/

namespace SourceReport.Data

/-- Why entries cannot stand together in one table. -/
inductive Conflict where
  /-- The key has been taken. -/
  | present (key : Text)
  /-- The table has been written by dotted keys. -/
  | redefined
  /-- An entry of an indented table has been left in several parts. -/
  | scattered
deriving DecidableEq

/-- The message names the key. -/
def Conflict.message : Conflict → Text
  | .present key => "Key \"" ++ key ++ "\" already exists."
  | .redefined => "Redefinition of an existing table"
  | .scattered => "'OutOfOrderTableProxy' object has no attribute 'trivia'"

/-- Why the contents of a text are refused that is of its format. -/
inductive Refusal where
  | conflict (c : Conflict)
  /-- An integer has too many digits. -/
  | digits (e : DigitLimitError)
  /-- Too many values stand inside each other. The format may have a name for the innermost one. -/
  | nesting (innermost : Option Text)
deriving DecidableEq

/-- The cause in words. -/
def Refusal.message : Refusal → Text
  | .conflict c => c.message
  | .digits e => e.message
  | .nesting none => "maximum recursion depth exceeded"
  | .nesting (some name) =>
    "maximum recursion depth exceeded while decoding a " ++ name ++ " from a unicode string"

/-- Why reading stops. -/
inductive Stop where
  /-- The code point at the front of the rest cannot stand there. What is around the value may still
  end there. -/
  | unexpected (rest : Text)
  /-- What was read in front of the rest is no part of the format. -/
  | invalid (rest : Text)
  | refused (r : Refusal)

/-- What was read and the rest of the text, or why reading stopped. -/
abbrev Reading (α : Type) := Except Stop (α × Text)

/-- The place where a text is not of the format it should have. -/
structure SyntaxError where
  /-- Line, counted from 1. -/
  line : Nat
  /-- Column, counted from 1. -/
  column : Nat
deriving DecidableEq

/-- The place that is `remaining` code points before the end of the text. -/
def SyntaxError.before (t : Text) (remaining : Nat) : SyntaxError :=
  let rows := Text.rows (t.take (t.length - remaining))
  ⟨rows.length, (rows.getLastD []).length + 1⟩

/-- The message names the place. -/
def SyntaxError.message (e : SyntaxError) : Text :=
  "unexpected input at line " ++ toString e.line ++ ", column " ++ toString e.column

/-- Why a text is not read. -/
inductive FormatError where
  | malformed (e : SyntaxError)
  | refused (r : Refusal)
deriving DecidableEq

/-- The error of reading that stopped in a text. -/
def FormatError.ofStop (t : Text) : Stop → FormatError
  | .unexpected rest => .malformed (.before t rest.length)
  | .invalid rest => .malformed (.before t rest.length)
  | .refused r => .refused r

/-- The error in words. -/
def FormatError.message : FormatError → Text
  | .malformed e => e.message
  | .refused r => r.message

/-- The number that hexadecimal digits write. -/
def hexNumber? (digits : Text) : Option Nat :=
  digits.foldl (fun n c => do return (← n) * 16 + (← c.hexValue?)) (some 0)

end SourceReport.Data
