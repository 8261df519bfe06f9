import SourceReport.Text.Basic

/-!
# Blanks

Which code points count as blank, which of them end a line, and how texts are stripped.

* Blank are the characters of general category Zs, Zl, Zp, the tab and line feeds of ASCII, NEL and
  the four information separators.
* `trimEnd`, `trimStart` and `trim` remove blanks at the ends.
-/

namespace SourceReport

namespace CodePoint

/-- White space of any kind. -/
def isBlank (c : CodePoint) : Bool :=
  let n := c.val
  (9 ≤ n && n ≤ 13) || (28 ≤ n && n ≤ 32) || n == 0x85 || n == 0xA0 || n == 0x1680
    || (0x2000 ≤ n && n ≤ 0x200A) || n == 0x2028 || n == 0x2029 || n == 0x202F || n == 0x205F
    || n == 0x3000

/-- The four information separators U+001C to U+001F. -/
def isInformationSeparator (c : CodePoint) : Bool := 28 ≤ c.val && c.val ≤ 31

/-- A control character: general category Cc. -/
def isControl (c : CodePoint) : Bool := c.val < 32 || (127 ≤ c.val && c.val < 160)

end CodePoint

namespace Text

/-- The text without the blanks at its front. -/
def trimStart (t : Text) : Text := t.dropWhile (·.isBlank)

/-- The text without the blanks at its end. -/
def trimEnd : Text → Text
  | [] => []
  | c :: rest =>
    match trimEnd rest with
    | [] => if c.isBlank then [] else [c]
    | kept => c :: kept

/-- The text without the blanks at both ends. -/
def trim (t : Text) : Text := trimEnd (trimStart t)

end Text

end SourceReport
