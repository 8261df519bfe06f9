import SourceReport.Text.Integer

/-!
# Palettes

A palette draws colors that are easy to tell apart from the color cube of the table of 256 colors.
Three counters of sixteen bits advance by fixed strides; each draw maps them to a point of the cube,
with a floor under every channel so that the colors stay readable on a dark ground.

* `Palette.next` advances the counters, `Palette.color` is the color of the place they stand at.
* `Palette.draw` draws one color after the other.

Reports compute their colors with floating-point numbers. A palette is the same over any numbers that
can be added, multiplied, divided, compared and cut to their whole part.
-/

namespace SourceReport

/-- Numbers that can be cut to their whole part. -/
class WholePart (α : Type) where
  /-- What is left of a number without its fraction, and nothing of one below zero. -/
  whole : α → Nat

instance instNatCastFloat : NatCast Float := ⟨Float.ofNat⟩

instance : WholePart Float := ⟨fun x => x.toUInt64.toNat⟩

/-- The three counters and the floor under every channel. -/
structure Palette (α : Type := Float) where
  first : Nat
  second : Nat
  third : Nat
  floor : α

namespace Palette

variable {α : Type}

/-- A seed has three counters; other numbers of them are refused. -/
structure SeedError where
  count : Nat
deriving DecidableEq

/-- The message names the number of counters given. -/
def SeedError.message (e : SeedError) : Text :=
  "palette state needs 3 counters, got " ++ Text.ofNat e.count

/-- The counters wrap around at this number. -/
def modulus : Nat := 65536

/-- How far a counter advances with each draw. -/
def stride (i : Nat) : Nat := 40503 * (i * 4 + 1130)

/-- A number brought into the range of a counter. -/
def wrap (n : Int) : Nat := (n % modulus).toNat

section Seed

variable [NatCast α] [LT α] [DecidableLT α]

/-- The number in the unit interval that is nearest to a number. -/
def clampUnit (x : α) : α :=
  let raised := if ((0 : Nat) : α) > x then ((0 : Nat) : α) else x
  if ((1 : Nat) : α) < raised then ((1 : Nat) : α) else raised

/-- The palette of a seed. -/
def ofSeed? (seed : List Int) (floor : α) : Except SeedError (Palette α) :=
  match seed with
  | [a, b, c] => .ok ⟨wrap a, wrap b, wrap c, clampUnit floor⟩
  | _ => .error ⟨seed.length⟩

end Seed

/-- The floor of a palette that is not told otherwise. -/
def defaultFloor : Float := 0.5

/-- The palette from which the labels of a report take their colors. -/
def default : Palette := ⟨30000, 15000, 35000, defaultFloor⟩

/-- The counters in order. -/
def counters (p : Palette α) : List Nat := [p.first, p.second, p.third]

/-- The palette after one draw. -/
def next (p : Palette α) : Palette α where
  first := (p.first + stride 0) % modulus
  second := (p.second + stride 1) % modulus
  third := (p.third + stride 2) % modulus
  floor := p.floor

section Colors

variable [Add α] [Sub α] [Mul α] [Div α] [NatCast α]

/-- A counter as a share of its range, moved above the floor. -/
def channel (floor : α) (counter : Nat) : α :=
  (counter : α) / ((65535 : Nat) : α) * (((1 : Nat) : α) - floor) + floor

/-- The place in the cube of 216 colors that three counters stand for. -/
def blend (floor : α) (first second third : Nat) : α :=
  channel floor third * ((5 : Nat) : α) + channel floor second * ((30 : Nat) : α)
    + channel floor first * ((180 : Nat) : α)

variable [WholePart α]

/-- The index of the color that the counters stand for, counted after the sixteen basic colors. -/
def color (p : Palette α) : Nat :=
  16 + WholePart.whole (blend p.floor p.first p.second p.third)

/-- The colors of the next draws, and the palette after them. -/
def draw : Nat → Palette α → List Nat × Palette α
  | 0, p => ([], p)
  | n + 1, p =>
    let (colors, last) := draw n p.next
    (p.next.color :: colors, last)

/-- The colors of the next draws. -/
def take (n : Nat) (p : Palette α) : List Nat := (draw n p).1

end Colors

end Palette

end SourceReport
