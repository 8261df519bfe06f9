import SourceReport.Data.Value
import SourceReport.Decimal.Notation

/-!
# Numbers of TOML

`number?` reads what stands between two delimiters as an integer or a float.

* A sign stands in front of decimal digits only, a leading zero only in front of a point, an
  exponent or a base letter, and a point only between digits.
* An underscore stands between two ASCII digits of the base.
* What is left is read in the loose notation, first as an integer. An integer with too many decimal
  digits is read as a float.
-/

namespace SourceReport.Data.Toml

/-- The base that the front of a number announces. -/
def baseOf (t : Text) : Nat :=
  match t with
  | zero :: letter :: _ =>
    if zero = '0' then
      if letter = 'b' then 2 else if letter = 'o' then 8 else if letter = 'x' then 16 else 10
    else 10
  | _ => 10

/-- Whether a zero at the front of a number may stand there. -/
def zeroFits (t : Text) : Bool :=
  match t with
  | zero :: next :: _ => zero ≠ '0' || next = '.' || next = 'e' || baseOf t ≠ 10
  | _ => true

/-- Whether a sign may stand in front of a number. -/
def signFits (t : Text) : Bool :=
  match t with
  | first :: _ :: _ => first ≠ '.' && baseOf t = 10
  | _ => true

/-- Whether the code point is an ASCII digit of the base. -/
def isAsciiDigitOf (base : Nat) (c : CodePoint) : Bool := c.hexValue?.any (· < base)

/-- Removes underscores between digits; any other underscore stays. -/
def dropUnderscores (base : Nat) : Text → Text
  | a :: u :: b :: rest =>
    if u = '_' && isAsciiDigitOf base a && isAsciiDigitOf base b then
      a :: dropUnderscores base (b :: rest)
    else a :: dropUnderscores base (u :: b :: rest)
  | t => t

/-- Whether a point ends the text. -/
def endsInPoint (t : Text) : Bool := t.getLast? = some '.'

/-- Whether a point ends a number or stands in front of its exponent. The digits of base 16 hold the
letter of the exponent, and no point ends what is in front of it. -/
def pointEnds (base : Nat) (t : Text) : Bool :=
  endsInPoint t || (base ≠ 16 && endsInPoint (t.takeWhile fun c : CodePoint => c ≠ 'e'))

/-- Reads a number without underscores in the loose notation. -/
def looseNumber? (base : Nat) (t : Text) : Option Value :=
  match Text.readInt base t with
  | .ok (some n) => some (.int n)
  | _ => (Decimal.ofText? t).map .float

/-- Reads a number. -/
def number? (t : Text) : Option Value :=
  let (_, unsigned) := Text.takeSign t
  let isSigned := unsigned.length < t.length
  let base := baseOf unsigned
  let body := (dropUnderscores base unsigned).toLower
  if !zeroFits unsigned || (isSigned && !signFits unsigned) || body.contains '_'
      || pointEnds base body then none
  else looseNumber? base ((if isSigned then t.take 1 else []) ++ body)

end SourceReport.Data.Toml
