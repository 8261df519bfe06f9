import SourceReport.Source.Name

/-!
# Spans

A span is a half-open range of bytes of one source, `start` included and `stop` not. Any two numbers
make a span (`Span.clamp`): negative ones count as 0, those above the largest offset as that, and an
end before the start as the start. Whether the source has these bytes is not asked.
-/

namespace SourceReport

/-- The largest offset of a span. -/
def maxOffset : Nat := 0xFFFFFFFF

/-- A half-open range of bytes of a source. -/
structure Span where
  file : SourceId
  /-- The first byte. -/
  start : Nat
  /-- The byte after the last one. -/
  stop : Nat
  start_le_stop : start ≤ stop
  stop_le_max : stop ≤ maxOffset
deriving DecidableEq

namespace Span

/-- An offset inside the admitted range. -/
def clampOffset (offset : Int) : Nat := min offset.toNat maxOffset

/-- The span of any two numbers. -/
def clamp (file : SourceId) (start stop : Int) : Span where
  file := file
  start := clampOffset start
  stop := max (clampOffset stop) (clampOffset start)
  start_le_stop := Nat.le_max_right _ _
  stop_le_max := Nat.max_le.2 ⟨Nat.min_le_right _ _, Nat.min_le_right _ _⟩

/-- The number of bytes. -/
def length (s : Span) : Nat := s.stop - s.start

/-- A span of no bytes. -/
def isEmpty (s : Span) : Bool := s.start = s.stop

/-- Whether the span holds a byte. -/
def contains (s : Span) (offset : Int) : Bool := s.start ≤ offset ∧ offset < s.stop

/-- Whether two spans share a byte of a source. -/
def overlaps (a b : Span) : Bool := a.file = b.file ∧ a.start < b.stop ∧ b.start < a.stop

/-- The span in messages. -/
def display (s : Span) : Text :=
  s.file.display ++ "[" ++ Text.ofNat s.start ++ ".." ++ Text.ofNat s.stop ++ "]"

end Span

/-- The span of two numbers in a source. -/
def SourceId.range (file : SourceId) (start stop : Int) : Span := .clamp file start stop

end SourceReport
