import SourceReport.Decimal.Shortest

/-!
# Decimal notation

The parts of a number in decimal notation: digits, a fraction behind a point, and an exponent.

* `digits`, `fraction?` and `exponent?` take the parts from the front of a text.
* `ofParts` is the double nearest to the number of the parts.
* `ofText?` reads a double in the loose notation: blanks around it, digits of any script, and the
  words for the infinities and for no number.
-/

namespace SourceReport.Decimal

/-- The ASCII digits at the front of the text and the rest. -/
def digits (t : Text) : Text × Text := t.span (·.isAsciiDigit)

/-- The fraction at the front of the text: a point and digits. -/
def fraction? (t : Text) : Option (Text × Text) :=
  match t with
  | c :: rest =>
    if c = '.' then
      match digits rest with
      | ([], _) => none
      | found => some found
    else none
  | [] => none

/-- The exponent at the front of the text: a letter, an optional sign and digits. -/
def exponent? (t : Text) : Option (Int × Text) :=
  match t with
  | c :: rest =>
    if c = 'e' || c = 'E' then
      let (negative, unsigned) := Text.takeSign rest
      match digits unsigned with
      | ([], _) => none
      | (ds, after) =>
        let n := Text.ofDigits 10 ds
        some (if negative then -(n : Int) else n, after)
    else none
  | [] => none

/-- The double nearest to the number that digits, places and an exponent write. -/
def ofParts (negative : Bool) (whole places : Text) (exponent : Int) : Float :=
  let x := toFloat (Text.ofDigits 10 (whole ++ places)) (exponent - places.length)
  if negative then -x else x

/-- The ASCII digit of the same value for a decimal digit of any script. -/
def plainDigit (c : CodePoint) : CodePoint :=
  match c.decimalValue? with
  | some n => Text.hexDigit n
  | none => c

/-- The double of a word. -/
def named? (negative : Bool) (word : Text) : Option Float :=
  let word := word.toLower
  if word = "inf" || word = "infinity" then some (if negative then -1.0 / 0.0 else 1.0 / 0.0)
  else if word = "nan" then some (0.0 / 0.0)
  else none

/-- The double of a number without sign. The digits may stand on either side of the point. -/
def magnitude? (negative : Bool) (t : Text) : Option Float :=
  let (whole, rest) := digits t
  let (places, rest) := match rest with
    | c :: after => if c = '.' then digits after else ([], rest)
    | [] => ([], [])
  if whole.isEmpty && places.isEmpty then none
  else match rest with
    | [] => some (ofParts negative whole places 0)
    | rest =>
      match exponent? rest with
      | some (exponent, []) => some (ofParts negative whole places exponent)
      | _ => none

/-- Reads a double in the loose notation. -/
def ofText? (t : Text) : Option Float :=
  let body := ((t.dropWhile Text.isNumberBlank).reverse.dropWhile Text.isNumberBlank).reverse
  let (negative, unsigned) := Text.takeSign (body.map plainDigit)
  (named? negative unsigned).or (magnitude? negative unsigned)

end SourceReport.Decimal
