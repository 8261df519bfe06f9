import SourceReport.Data.Value
import SourceReport.Decimal.Notation

/-!
# Dates and times of TOML

`moment?` reads a date, a time or a date with a time.

* A date has its month and day in two digits each, a time its three parts; fractions of a second
  are cut after six digits.
* A time with a date may end in its offset from universal time: `Z`, or hours and minutes behind a
  sign. A bar is the sign of an offset to the east, too.
-/

namespace SourceReport.Data.Toml

/-- The number that decimal digits write. -/
def amountOf (ds : Text) : Nat := Text.ofDigits 10 ds

/-- Two digits at the front of the text, at least `low` and at most `high`. -/
def twoDigits? (low high : Nat) (t : Text) : Option (Nat × Text) :=
  match t with
  | a :: b :: rest =>
    let n := amountOf [a, b]
    if a.isAsciiDigit && b.isAsciiDigit && low ≤ n && n ≤ high then some (n, rest) else none
  | _ => none

/-- A given code point at the front of the text. -/
def expect? (c : CodePoint) (t : Text) : Option Text :=
  match t with
  | d :: rest => if d = c then some rest else none
  | [] => none

/-- Every fourth year is a leap year, centuries only if 400 divides them. -/
def isLeap (year : Nat) : Bool := year % 4 == 0 && (year % 100 != 0 || year % 400 == 0)

/-- The number of days of a month. -/
def daysIn (year month : Nat) : Nat :=
  if month = 2 then (if isLeap year then 29 else 28)
  else if month = 4 || month = 6 || month = 9 || month = 11 then 30
  else 31

/-- A date at the front of the text. -/
def date? (t : Text) : Option (Date × Text) := do
  let (year, rest) := Decimal.digits t
  let rest ← expect? '-' rest
  let (month, rest) ← twoDigits? 1 12 rest
  let rest ← expect? '-' rest
  let (day, rest) ← twoDigits? 1 31 rest
  let y := amountOf year
  if year.length ≤ digitLimit ∧ 1 ≤ y ∧ y ≤ 9999 ∧ day ≤ daysIn y month then
    some (⟨y, month, day⟩, rest)
  else none

/-- The microseconds that the digits after the point write. -/
def microseconds (ds : Text) : Nat :=
  amountOf ((ds ++ Text.repeated 6 '0').take 6)

/-- A time at the front of the text. -/
def time? (t : Text) : Option (Time × Text) := do
  let (hour, rest) ← twoDigits? 0 23 t
  let rest ← expect? ':' rest
  let (minute, rest) ← twoDigits? 0 59 rest
  let rest ← expect? ':' rest
  let (second, rest) ← twoDigits? 0 59 rest
  match expect? '.' rest with
  | none => some (⟨hour, minute, second, 0⟩, rest)
  | some places =>
    match Decimal.digits places with
    | ([], _) => none
    | (ds, rest) => some (⟨hour, minute, second, microseconds ds⟩, rest)

/-- The offset that ends a date and time, if there is one. -/
def offset? (t : Text) : Option (Option Offset) :=
  match t with
  | [] => some none
  | sign :: rest =>
    if (sign = 'Z' || sign = 'z') && rest.isEmpty then some (some ⟨0, "UTC"⟩)
    else if sign = '+' || sign = '-' || sign = '|' then do
      let (hours, rest) ← twoDigits? 0 23 rest
      let rest ← expect? ':' rest
      let (minutes, rest) ← twoDigits? 0 59 rest
      let east : Int := 60 * hours + minutes
      if rest.isEmpty then some (some ⟨if sign = '-' then -east else east, t⟩) else none
    else none

/-- A date, a time or a date with a time. -/
def moment? (t : Text) : Option Value :=
  match date? t with
  | some (d, []) => some (.date d)
  | some (d, separator :: rest) => do
    if separator = 'T' || separator = 't' || separator = ' ' then
      let (time, rest) ← time? rest
      let offset ← offset? rest
      some (.dateTime d time offset)
    else none
  | none =>
    match time? t with
    | some (time, []) => some (.time time)
    | _ => none

end SourceReport.Data.Toml
