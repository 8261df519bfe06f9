import SourceReport.Data.Value
import SourceReport.Text.Integer

/-!
# Colors

A color is a name, an index into the table of 256 colors, or its red, green and blue parts. Any
text and any numbers make a `Color`; `Color.isValid` tells which of them a terminal knows.

* `Color.ofValue?` reads a valid color from a document or settings value.
* `Color.hexOfIndex` gives the hexadecimal form of a table entry.
-/

namespace SourceReport

/-- A color. -/
inductive Color where
  | named (name : Text)
  | indexed (index : Int)
  | rgb (red green blue : Int)
deriving DecidableEq

namespace Color

/-- The eight basic colors, in the order of their codes. -/
def basicNames : List Text :=
  ["black", "red", "green", "yellow", "blue", "magenta", "cyan", "white"]

/-- The front of the names of the bright variants. -/
def brightFront : Text := "bright_"

/-- The name without the mark of brightness, and whether it was there. -/
def splitBright (name : Text) : Text × Bool :=
  match Text.dropFront? brightFront name with
  | some rest => (rest, true)
  | none => (name, false)

/-- Whether a number is one of the 256 values of a byte. -/
def inByte (n : Int) : Bool := 0 ≤ n ∧ n ≤ 255

/-- Whether a terminal knows the color. -/
def isValid : Color → Bool
  | .named name => basicNames.contains (splitBright name).1 || name == "reset"
  | .indexed n => inByte n
  | .rgb r g b => inByte r && inByte g && inByte b

/-- A valid color from a value: a name, a number, or a list of three numbers. -/
def ofValue? (v : Data.Value) : Option Color :=
  let found : Option Color := match v with
    | .text name => some (.named name)
    | .int n => some (.indexed n)
    | .list [.int r, .int g, .int b] => some (.rgb r g b)
    | _ => none
  found.filter isValid

/-! ## Hexadecimal form -/

/-- A number of two hexadecimal digits or more, a negative one after a minus sign. -/
def hexByte (n : Int) : Text :=
  match n with
  | .ofNat n => Text.ofHex 2 n
  | .negSucc n => "-" ++ Text.ofHex 1 (n + 1)

/-- Red, green and blue after a number sign. -/
def hexOfParts (r g b : Int) : Text := "#" ++ hexByte r ++ hexByte g ++ hexByte b

/-- The first sixteen entries of the table. -/
def firstHexes : List Text := [
  "#000000", "#cd0000", "#00cd00", "#cdcd00", "#0000ee", "#cd00cd", "#00cdcd", "#e5e5e5",
  "#7f7f7f", "#ff0000", "#00ff00", "#ffff00", "#5c5cff", "#ff00ff", "#00ffff", "#ffffff"]

/-- The brightness of a step of the color cube. -/
def cubeStep (n : Nat) : Nat := if n = 0 then 0 else 55 + 40 * n

/-- The hexadecimal form of a table entry; an index outside the table stands for the nearest one.
The table has sixteen entries of its own, then a cube of six steps for each part, then greys. -/
def hexOfIndex (index : Int) : Text :=
  let n := min index.toNat 255
  if n < 16 then firstHexes.getD n []
  else if n < 232 then
    let cube := n - 16
    hexOfParts (cubeStep (cube / 36)) (cubeStep (cube / 6 % 6)) (cubeStep (cube % 6))
  else
    let grey : Nat := 8 + (n - 232) * 10
    hexOfParts grey grey grey

end Color

end SourceReport
