import SourceReport.Data.Literal
import SourceReport.Style.ColorMode

/-!
# Log levels

How urgent a log record is, as a number: the greater the number, the more urgent. A few numbers have
names.

* `LogLevel.ofWord` reads the level that the environment asks for: a name, or a number in digits.
* A word that is neither asks for nothing; a digit without place value is refused.
-/

namespace SourceReport

/-- How urgent a log record is. -/
abbrev LogLevel := Int

namespace LogLevel

/-- Every single step. -/
def trace : LogLevel := 5

/-- What helps to find a mistake in the program. -/
def debug : LogLevel := 10

/-- What a run does. -/
def info : LogLevel := 20

/-- What was put right. -/
def warning : LogLevel := 30

/-- What failed. -/
def error : LogLevel := 40

/-- What ends the run. -/
def critical : LogLevel := 50

/-- The named levels and their names in records. -/
def names : List (LogLevel × Text) := [
  (trace, "TRACE"), (debug, "DEBUG"), (info, "INFO"), (warning, "WARNING"), (error, "ERROR"),
  (critical, "CRITICAL"), (0, "NOTSET")]

/-- Further names by which the environment may ask for a level. -/
def shortNames : List (LogLevel × Text) := [(warning, "WARN"), (critical, "FATAL")]

/-- What a level is called in a record. -/
def name (l : LogLevel) : Text := (names.lookup l).getD ("Level " ++ Text.ofInt l)

/-- The level of a name. -/
def ofName? (word : Text) : Option LogLevel :=
  ((names ++ shortNames).find? fun entry : LogLevel × Text => entry.2 = word).map (·.1)

/-- The capital of a letter, where that is an ASCII letter. The dotless i and the long s have such
capitals too. -/
def capital (c : CodePoint) : CodePoint :=
  if h : 97 ≤ c.val ∧ c.val ≤ 122 then ⟨c.val - 32, by omega⟩
  else if c.val = 0x131 then 'I'
  else if c.val = 0x17F then 'S'
  else c

/-- Why a word of digits is no number. -/
inductive NumberError where
  /-- One of the digits has no place value. -/
  | malformed (word : Text)
  /-- There are too many of them. -/
  | digits (e : DigitLimitError)
deriving DecidableEq

/-- The error in words. -/
def NumberError.message : NumberError → Text
  | .malformed word => "invalid literal for int() with base 10: " ++ word.quoted
  | .digits e => e.message

/-- The level that a word asks for. -/
def ofWord (word : Text) : Except NumberError (Option LogLevel) :=
  let word : Text := word.trim.map capital
  if word ≠ [] && word.all (·.isDigit) then
    match Text.readInt 10 word with
    | .ok (some n) => .ok (some n)
    | .ok none => .error (.malformed word)
    | .error e => .error (.digits e)
  else .ok (ofName? word)

/-- The level that the environment asks for. -/
def ofEnvironment (env : Environment) : Except NumberError (Option LogLevel) :=
  match env.logLevel with
  | some word => ofWord word
  | none => .ok none

/-- From this level on records are written. -/
def threshold (asked : Option LogLevel) : LogLevel := asked.getD critical

end LogLevel

end SourceReport
