import SourceReport.Text.Basic

/-!
# Character boundaries

An offset is a boundary of a text if it is the length in bytes of one of its prefixes.

* `takeBytes t n` is the longest prefix of at most `n` bytes, `dropBytes t n` what follows it;
* `isBoundary t n` decides whether that prefix has exactly `n` bytes.
-/

namespace SourceReport.Text

/-- The longest prefix of at most `n` bytes. -/
def takeBytes : Text → Nat → Text
  | [], _ => []
  | c :: rest, n => if c.utf8Width ≤ n then c :: takeBytes rest (n - c.utf8Width) else []

/-- What follows the longest prefix of at most `n` bytes. -/
def dropBytes : Text → Nat → Text
  | [], _ => []
  | c :: rest, n => if c.utf8Width ≤ n then dropBytes rest (n - c.utf8Width) else c :: rest

/-- Whether `n` is the length of a prefix. -/
def isBoundary : Text → Nat → Bool
  | _, 0 => true
  | [], _ + 1 => false
  | c :: rest, n + 1 => c.utf8Width ≤ n + 1 && isBoundary rest (n + 1 - c.utf8Width)

/-- The largest boundary that is at most `n`. -/
def floorBoundary (t : Text) (n : Nat) : Nat := (takeBytes t n).utf8Length

end SourceReport.Text
