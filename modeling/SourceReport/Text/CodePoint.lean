/-!
# Code points

A `CodePoint` is one of the 1114112 positions of the Unicode code space. The surrogates
U+D800 to U+DFFF are code points too: a text read from an escape such as `\ud800` holds one, and
only a source buffer refuses them (`Text.loneSurrogate?`).

* `utf8Width` is the number of bytes of the UTF-8 encoding, a surrogate taking three;
* `units16` is the number of UTF-16 code units;
* `utf8` lists the bytes, so `c.utf8.length = c.utf8Width` (`length_utf8`).
-/

namespace SourceReport

/-- A position of the Unicode code space, surrogates included. -/
structure CodePoint where
  /-- The scalar or surrogate value. -/
  val : Nat
  /-- The code space ends at U+10FFFF. -/
  isLt : val < 0x110000
deriving DecidableEq

namespace CodePoint

@[ext] theorem ext {c d : CodePoint} (h : c.val = d.val) : c = d := by
  cases c; cases d; cases h; rfl

/-- The code point of a character. -/
def ofChar (c : Char) : CodePoint :=
  ⟨c.toNat, by
    have h : c.toNat = c.val.toNat := rfl
    rcases c.valid with hv | hv <;> omega⟩

instance : Coe Char CodePoint := ⟨ofChar⟩

instance : Inhabited CodePoint := ⟨⟨0, by decide⟩⟩

/-- The code point of a number inside the code space. -/
def ofNat? (n : Nat) : Option CodePoint :=
  if h : n < 0x110000 then some ⟨n, h⟩ else none

/-- U+FFFD, which stands for what cannot be shown. -/
def replacement : CodePoint := ⟨0xFFFD, by decide⟩

/-- The surrogates have no UTF-8 encoding of their own. -/
def isSurrogate (c : CodePoint) : Bool :=
  decide (0xD800 ≤ c.val) && decide (c.val ≤ 0xDFFF)

/-- The first code point of a surrogate pair. -/
def isHighSurrogate (c : CodePoint) : Bool :=
  decide (0xD800 ≤ c.val) && decide (c.val ≤ 0xDBFF)

/-- The second code point of a surrogate pair. -/
def isLowSurrogate (c : CodePoint) : Bool :=
  decide (0xDC00 ≤ c.val) && decide (c.val ≤ 0xDFFF)

/-- The number of bytes of the UTF-8 encoding. -/
def utf8Width (c : CodePoint) : Nat :=
  if c.val < 0x80 then 1 else if c.val < 0x800 then 2 else if c.val < 0x10000 then 3 else 4

/-- The number of UTF-16 code units. -/
def units16 (c : CodePoint) : Nat := if 0xFFFF < c.val then 2 else 1

/-- A continuation byte carries six bits. -/
private def continuation (n : Nat) : UInt8 := .ofNat (0x80 + n % 64)

/-- The bytes of the UTF-8 encoding; a surrogate is encoded like its neighbours. -/
def utf8 (c : CodePoint) : List UInt8 :=
  let n := c.val
  if n < 0x80 then [.ofNat n]
  else if n < 0x800 then [.ofNat (0xC0 + n / 64), continuation n]
  else if n < 0x10000 then [.ofNat (0xE0 + n / 4096), continuation (n / 64), continuation n]
  else [.ofNat (0xF0 + n / 262144), continuation (n / 4096), continuation (n / 64), continuation n]

theorem length_utf8 (c : CodePoint) : c.utf8.length = c.utf8Width := by
  unfold utf8 utf8Width
  dsimp only
  split
  · rfl
  · split
    · rfl
    · split <;> rfl

theorem utf8Width_pos (c : CodePoint) : 0 < c.utf8Width := by
  unfold utf8Width; split
  · decide
  · split
    · decide
    · split <;> decide

theorem units16_pos (c : CodePoint) : 0 < c.units16 := by
  unfold units16; split <;> decide

/-- The lower-case letter of an ASCII capital, and every other code point unchanged. -/
def toLower (c : CodePoint) : CodePoint :=
  if h : 65 ≤ c.val ∧ c.val ≤ 90 then ⟨c.val + 32, by omega⟩ else c

/-- An ASCII digit. -/
def isAsciiDigit (c : CodePoint) : Bool := decide (48 ≤ c.val) && decide (c.val ≤ 57)

/-- An ASCII letter. -/
def isAsciiLetter (c : CodePoint) : Bool :=
  (decide (65 ≤ c.val) && decide (c.val ≤ 90)) || (decide (97 ≤ c.val) && decide (c.val ≤ 122))

/-- The value of a hexadecimal digit. -/
def hexValue? (c : CodePoint) : Option Nat :=
  if 48 ≤ c.val ∧ c.val ≤ 57 then some (c.val - 48)
  else if 97 ≤ c.val ∧ c.val ≤ 102 then some (c.val - 87)
  else if 65 ≤ c.val ∧ c.val ≤ 70 then some (c.val - 55)
  else none

end CodePoint

end SourceReport
