import SourceReport.Text.Integer
import SourceReport.Text.Format
import SourceReport.Text.Wide

/-!
# Quoted texts

The notation for a text inside a message: single quotes around it, or double quotes if the text
holds a single quote and no double quote. A backslash, the quote in use and every code point that
cannot be printed are escaped.
-/

namespace SourceReport

namespace CodePoint

/-- A code point set aside for private agreement: general category Co. -/
def isPrivateUse (c : CodePoint) : Bool :=
  let n := c.val
  (0xE000 ≤ n && n ≤ 0xF8FF) || (0xF0000 ≤ n && n ≤ 0xFFFFD) || (0x100000 ≤ n && n ≤ 0x10FFFD)

/-- A separator of general category Zs, Zl or Zp. -/
def isSeparator (c : CodePoint) : Bool := c.isBlank && !c.isControl

/-- Whether the code point is shown as it is in a quoted text. -/
def isPrintable (c : CodePoint) : Bool :=
  c.val == 32 ||
    !(c.isControl || c.isFormat || c.isSurrogate || c.isPrivateUse || c.isUnassigned
      || c.isSeparator)

end CodePoint

namespace Text

/-- The quote that needs the fewest escapes; the single quote if both are needed. -/
def quoteFor (t : Text) : CodePoint :=
  if t.contains '\x27' && !t.contains '"' then '"' else '\x27'

/-- How a code point is written between quotes. -/
def escapeIn (quote c : CodePoint) : Text :=
  if c = quote || c = '\\' then ['\\', c]
  else if c = '\n' then "\\n"
  else if c = '\r' then "\\r"
  else if c = '\t' then "\\t"
  else if c.isPrintable then [c]
  else if c.val ≤ 0xFF then "\\x" ++ hexDigits 2 c.val
  else if c.val ≤ 0xFFFF then "\\u" ++ hexDigits 4 c.val
  else "\\U" ++ hexDigits 8 c.val

/-- The text between quotes. -/
def quoted (t : Text) : Text :=
  let quote := quoteFor t
  quote :: t.flatMap (escapeIn quote) ++ [quote]

end Text

end SourceReport
