import SourceReport.Text.CodePoint

/-!
# Tables of code point ranges

A property of the Unicode character database is an increasing list of closed ranges. Membership
is decided by halving the table.
-/

namespace SourceReport

/-- Closed ranges of code points, in increasing order and apart from each other. -/
structure RangeTable where
  /-- First and last code point of each range. -/
  ranges : Array (Nat × Nat)

namespace RangeTable

/-- Looks for the range that holds `n` among those with index from `low` to below `high`. -/
def search (t : RangeTable) (n low high : Nat) : Option (Nat × Nat) :=
  if _h : low < high then
    let mid := (low + high) / 2
    match t.ranges[mid]? with
    | none => none
    | some range =>
      if n < range.1 then t.search n low mid
      else if range.2 < n then t.search n (mid + 1) high
      else some range
  else none
termination_by high - low

/-- The range that holds `n`. -/
def range? (t : RangeTable) (n : Nat) : Option (Nat × Nat) := t.search n 0 t.ranges.size

/-- Whether a range of the table holds the code point. -/
def contains (t : RangeTable) (c : CodePoint) : Bool := (t.range? c.val).isSome

end RangeTable

end SourceReport
