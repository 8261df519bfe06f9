import SourceReport.Text.Blank
import SourceReport.Text.Digit

/-!
# Integers in texts

`ofNat`, `ofInt` and `ofHex` write integers. `readInt` reads the loose notation that options and
settings allow: blanks around the number (information separators excepted), an optional sign, the
mark of its base, and digits of any script with single underscores between them.

* Numbers of more than `digitLimit` decimal digits are neither read nor written
  (`DigitLimitError`). Digits of the bases 2, 8 and 16 are read in any number, so that a number can
  be read that cannot be written.
-/

namespace SourceReport

namespace Text

/-- A natural number in decimal notation. -/
def ofNat (n : Nat) : Text := ofString (toString n)

/-- An integer in decimal notation, negative numbers with a minus sign. -/
def ofInt (i : Int) : Text :=
  match i with
  | .ofNat n => ofNat n
  | .negSucc n => "-" ++ ofNat (n + 1)

/-- A lower-case hexadecimal digit. -/
def hexDigit (n : Nat) : CodePoint := .ofChar (Nat.digitChar (n % 16))

/-- The last `width` hexadecimal digits of a number. -/
def hexDigits : (width : Nat) → Nat → Text
  | 0, _ => []
  | width + 1, n => hexDigits width (n / 16) ++ [hexDigit n]

/-- A number in hexadecimal notation with at least `width` digits. -/
def ofHex (width : Nat) (n : Nat) : Text :=
  let digits := (Nat.toDigits 16 n).map CodePoint.ofChar
  repeated (width - digits.length) '0' ++ digits

/-- `n` right-aligned in a field. -/
def padStart (width : Nat) (t : Text) : Text := spaces (width - t.length) ++ t

end Text

/-! ## The number of digits -/

/-- The largest number of decimal digits that are read or written. -/
def digitLimit : Nat := 4300

/-- An integer with too many decimal digits. -/
inductive DigitLimitError where
  /-- So many digits were to be read. -/
  | reading (digits : Nat)
  | writing
deriving DecidableEq

/-- The message names the limit. -/
def DigitLimitError.message (e : DigitLimitError) : Text :=
  "Exceeds the limit (" ++ Text.ofNat digitLimit ++ " digits) for integer string conversion"
    ++ (match e with
      | .reading digits => ": value has " ++ Text.ofNat digits ++ " digits"
      | .writing => "")
    ++ "; use sys.set_int_max_str_digits() to increase the limit"

namespace Text

/-- Whether an integer has no more decimal digits than may be written. -/
def isWritable (i : Int) : Bool := i.natAbs < Nat.pow 10 digitLimit

/-- Writes an integer in decimal notation. -/
def writeInt (i : Int) : Except DigitLimitError Text :=
  if isWritable i then .ok (ofInt i) else .error .writing

/-! ## Reading -/

/-- The value of a digit: a decimal digit of any script or one of the letters a to f. -/
def digitValue? (c : CodePoint) : Option Nat := c.decimalValue?.or c.hexValue?

/-- Whether a code point is a digit of a base, which is at most 16. -/
def isDigitOf (base : Nat) (c : CodePoint) : Bool := (digitValue? c).any (· < base)

/-- The number that digits of a base write; other code points count as zeros. -/
def ofDigits (base : Nat) (ds : Text) : Nat :=
  ds.foldl (fun n c => n * base + (digitValue? c).getD 0) 0

/-- The number that decimal digits write. -/
def readDigits (ds : Text) : Except DigitLimitError Nat :=
  if digitLimit < ds.length then .error (.reading ds.length) else .ok (ofDigits 10 ds)

/-- The digits of a run in which single underscores stand between digits. -/
def underscored? : Text → Option Text
  | [] => none
  | [c] => if c = '_' then none else some [c]
  | c :: d :: rest =>
    if c = '_' then none
    else if d = '_' then (underscored? rest).map (c :: ·)
    else (underscored? (d :: rest)).map (c :: ·)

/-- The blanks that may stand around a number. -/
def isNumberBlank (c : CodePoint) : Bool := c.isBlank && !c.isInformationSeparator

/-- Whether a number is negative, and what follows its sign. -/
def takeSign : Text → Bool × Text
  | [] => (false, [])
  | c :: rest =>
    if c = '-' then (true, rest) else if c = '+' then (false, rest) else (false, c :: rest)

/-- The letter that announces digits of a base after a zero. -/
def baseLetter? (base : Nat) : Option CodePoint :=
  if base = 2 then some 'b' else if base = 8 then some 'o' else if base = 16 then some 'x'
  else none

/-- The text behind the mark of its base: a zero, the letter, and perhaps an underscore. -/
def dropBaseMark (base : Nat) (t : Text) : Text :=
  match t with
  | zero :: letter :: rest =>
    if digitValue? zero = some 0 ∧ baseLetter? base = some letter.toLower then
      match rest with
      | c :: after => if c = '_' then after else rest
      | [] => []
    else t
  | _ => t

/-- Reads an integer in the loose notation; the answer is nothing for a text of another kind. -/
def readInt (base : Nat) (t : Text) : Except DigitLimitError (Option Int) := do
  let (negative, unsigned) := takeSign (t.dropWhile isNumberBlank)
  let (run, rest) := (dropBaseMark base unsigned).span fun c : CodePoint =>
    c = '_' || isDigitOf base c
  match underscored? run with
  | none => return none
  | some ds =>
    let n ← if base = 10 then readDigits ds else .ok (ofDigits base ds)
    if rest.all isNumberBlank then return some (if negative then -(n : Int) else n)
    else return none

end Text

end SourceReport
