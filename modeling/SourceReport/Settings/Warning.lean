import SourceReport.Data.Literal

/-!
# Warnings about settings

A `Warning` tells which value of a table cannot be used and why. Its message shows the value, so a
value that holds an integer of too many digits has no message (`UnwritableWarning`).
-/

namespace SourceReport

open Data (Value)

/-- Why a value cannot be used. -/
inductive Unfit where
  /-- It should be of another kind. -/
  | kind (expected : Text)
  /-- The integer is too small. -/
  | below (minimum : Int)
  /-- The word is none of those allowed. -/
  | word (allowed : List Text)
  | color
deriving DecidableEq

/-- A value that cannot be used, and its place. -/
structure Warning where
  place : Text
  value : Value
  cause : Unfit

/-- A warning that cannot be written, with the messages in front of it. -/
structure UnwritableWarning where
  before : List Text
  cause : DigitLimitError
deriving DecidableEq

namespace Warning

/-- The warning in words that name the place and show the value. -/
def message (w : Warning) : Except DigitLimitError Text := do
  let shown ← w.value.write
  return match w.cause with
    | .kind expected =>
      "Expected " ++ expected ++ " in " ++ w.place ++ ", got " ++ w.value.kind ++ ": " ++ shown
    | .below minimum =>
      "Expected int >= " ++ Text.ofInt minimum ++ " in " ++ w.place ++ ", got " ++ shown
    | .word allowed =>
      "Invalid value for " ++ w.place ++ ": " ++ shown ++ " (allowed: " ++ Text.join ", " allowed
        ++ ")"
    | .color => "Invalid color in " ++ w.place ++ ": " ++ shown

/-- The messages of warnings. -/
def messages : List Warning → Except UnwritableWarning (List Text)
  | [] => .ok []
  | w :: rest =>
    match w.message, messages rest with
    | .error e, _ => .error ⟨[], e⟩
    | .ok t, .error e => .error { e with before := t :: e.before }
    | .ok t, .ok ts => .ok (t :: ts)

end Warning

end SourceReport
