import SourceReport.Text.Integer

/-!
# Shortest decimals of binary fractions

A positive double is `m * 2 ^ q`, and the reals that round to it form an interval whose ends count
exactly if `m` is even. Its shortest decimal is the point of the coarsest decimal grid that meets
the interval; of two such points the nearer one.

* `Binary.ofFloat` takes a double apart.
* `shortest m q` is the pair `(n, g)` with the decimal `n * 10 ^ g`.
* `Binary.format` writes it: positional for decimal exponents from -4 to 15 with at least one place,
  otherwise with an exponent of at least two digits.
-/

namespace SourceReport.Decimal

/-- A double by its parts. -/
inductive Binary where
  | nan
  | infinite (negative : Bool)
  /-- The number `m * 2 ^ q`, with its sign. -/
  | finite (negative : Bool) (m : Nat) (q : Int)

/-- The bit of a fraction that is not stored, `2 ^ 52`. -/
def hidden : Nat := 0x10000000000000

/-- Takes the bits of a double apart. -/
def Binary.ofFloat (x : Float) : Binary :=
  let bits := x.toBits.toNat
  let negative := bits / 0x8000000000000000 == 1
  let exponent : Nat := bits / hidden % 2048
  let fraction : Nat := bits % hidden
  if exponent = 2047 then (if fraction = 0 then .infinite negative else .nan)
  else if exponent = 0 then .finite negative fraction (-1074)
  else .finite negative (hidden + fraction) ((exponent : Int) - 1075)

/-- The part of `2 ^ q * 10 ^ g` that stands above the line of a fraction. -/
def scale (q g : Int) : Nat := Nat.pow 2 q.toNat * Nat.pow 10 g.toNat

/-- Whether the decimal `n * 10 ^ g` lies in the interval of reals that round to `m * 2 ^ q`. -/
def reads (m : Nat) (q : Int) (n : Nat) (g : Int) : Bool :=
  -- four times the number and the ends of its interval, over a common denominator
  let left := scale q (-g)
  let point := 4 * n * scale (-q) g
  let low := if m = hidden ∧ q ≠ -1074 then (4 * m - 1) * left else (4 * m - 2) * left
  let high := (4 * m + 2) * left
  if m % 2 = 0 then decide (low ≤ point ∧ point ≤ high) else decide (low < point ∧ point < high)

/-- Tries the grid `10 ^ g` and then finer ones. -/
def search (m : Nat) (q : Int) : (fuel : Nat) → (g : Int) → Nat × Int
  | 0, g => (0, g)
  | fuel + 1, g =>
    let numerator := m * scale q (-g)
    let denominator := scale (-q) g
    let below := numerator / denominator
    let nearBelow := below != 0 && reads m q below g
    let nearAbove := reads m q (below + 1) g
    let twice := 2 * (numerator % denominator)
    if nearBelow && nearAbove then
      if twice < denominator || (twice = denominator && below % 2 = 0) then (below, g)
      else (below + 1, g)
    else if nearBelow then (below, g)
    else if nearAbove then (below + 1, g)
    else search m q fuel (g - 1)

/-- The shortest decimal that reads as `m * 2 ^ q`. -/
def shortest (m : Nat) (q : Int) : Nat × Int :=
  search m q 40 (((q + (m.log2 : Int) + 1) * 30103).fdiv 100000 + 2)

/-- The decimal without the zeros at the end of its digits. -/
def normalise : (fuel : Nat) → Nat × Int → Nat × Int
  | 0, d => d
  | fuel + 1, (n, g) => if n ≠ 0 ∧ n % 10 = 0 then normalise fuel (n / 10, g + 1) else (n, g)

/-- The positional notation of `digits * 10 ^ g`, with at least one place after the point. -/
def positional (digits : Text) (g : Int) : Text :=
  let point := (digits.length : Int) + g
  if g ≥ 0 then digits ++ Text.repeated g.toNat '0' ++ ".0"
  else if point ≤ 0 then "0." ++ Text.repeated (-point).toNat '0' ++ digits
  else digits.take point.toNat ++ "." ++ digits.drop point.toNat

/-- The notation of `digits * 10 ^ g` with a signed exponent of at least two digits. -/
def scientific (digits : Text) (exponent : Int) : Text :=
  let mantissa := match digits with
    | [] => []
    | [d] => [d]
    | d :: rest => d :: '.' :: rest
  let size := Text.ofNat exponent.natAbs
  mantissa ++ "e" ++ (if exponent < 0 then "-" else "+")
    ++ Text.repeated (2 - size.length) '0' ++ size

/-- The text of a double. -/
def Binary.format : Binary → Text
  | .nan => "nan"
  | .infinite negative => if negative then "-inf" else "inf"
  | .finite negative m q =>
    let body : Text :=
      if m = 0 then "0.0"
      else
        let (n, g) := normalise 20 (shortest m q)
        let digits := Text.ofNat n
        let exponent := (digits.length : Int) + g - 1
        if -4 ≤ exponent ∧ exponent < 16 then positional digits g else scientific digits exponent
    if negative then "-" ++ body else body

/-- The text of a double: the fewest digits that read back. -/
def ofFloat (x : Float) : Text := (Binary.ofFloat x).format

/-- The double nearest to `digits * 10 ^ exponent`; beyond the range of doubles it is infinite. -/
def toFloat (digits : Nat) (exponent : Int) : Float :=
  let size := ((Nat.toDigits 10 digits).length : Int) + exponent
  if digits = 0 || size < -400 then 0.0
  else if size > 400 then 1.0 / 0.0
  else if exponent < 0 then Float.ofScientific digits true exponent.natAbs
  else Float.ofScientific digits false exponent.natAbs

end SourceReport.Decimal
