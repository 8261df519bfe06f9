import SourceReport.Text.RangeTable

/-!
# Format characters

General category Cf of Unicode 14.0: soft hyphen, joiners, directional marks and tags.
-/

namespace SourceReport

namespace CodePoint

/-- The ranges of general category Cf. -/
def formatRanges : RangeTable where ranges := #[
  (0xAD, 0xAD), (0x600, 0x605), (0x61C, 0x61C), (0x6DD, 0x6DD), (0x70F, 0x70F), (0x890, 0x891),
  (0x8E2, 0x8E2), (0x180E, 0x180E), (0x200B, 0x200F), (0x202A, 0x202E), (0x2060, 0x2064),
  (0x2066, 0x206F), (0xFEFF, 0xFEFF), (0xFFF9, 0xFFFB), (0x110BD, 0x110BD), (0x110CD, 0x110CD),
  (0x13430, 0x13438), (0x1BCA0, 0x1BCA3), (0x1D173, 0x1D17A), (0xE0001, 0xE0001),
  (0xE0020, 0xE007F)]

/-- An invisible character that steers the layout of its neighbours. -/
def isFormat (c : CodePoint) : Bool := formatRanges.contains c

end CodePoint

end SourceReport
