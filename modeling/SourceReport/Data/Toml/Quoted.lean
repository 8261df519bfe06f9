import SourceReport.Data.Reading

/-!
# Strings of TOML

The four kinds of strings: basic and literal ones on one line, and both between tripled quotes over
several lines. A basic string has escapes, a literal one none.

* A newline directly after three opening quotes is not part of the string.
* Three to five quotes close a string over several lines; the first one or two of more than three
  belong to it.
* A backslash at the end of a line removes the blanks and newlines up to the next other character.
* A long escape has four code points or eight, which are read as a number in the loose notation.

Each step of a reader takes a code point, so fuel above the length of the text is never used up.
-/

namespace SourceReport.Data.Toml

/-- The blanks inside a line. -/
def isSpace (c : CodePoint) : Bool := c = ' ' || c = '\t'

/-- The blanks that a backslash at the end of a line removes. -/
def isGap (c : CodePoint) : Bool := isSpace c || c = '\n' || c = '\r'

/-- A control character that no string and no comment holds as it is. -/
def isForbidden (c : CodePoint) : Bool := c.val = 127 || (c.val < 32 && c.val ≠ 9)

/-- The escapes of one letter. -/
def shortEscape? (c : CodePoint) : Option CodePoint :=
  if c = '"' || c = '\\' then some c
  else if c = 'b' then some '\x08'
  else if c = 't' then some '\t'
  else if c = 'n' then some '\n'
  else if c = 'f' then some '\x0c'
  else if c = 'r' then some '\r'
  else none

/-- An ASCII digit below eight. -/
def isOctal (c : CodePoint) : Bool := 48 ≤ c.val && c.val ≤ 55

/-- The code point that the number of a long escape names. The number is written in the loose
notation of base 16, but not with the digits of a surrogate at its front. -/
def namedPoint? (number : Text) : Option CodePoint :=
  match number with
  | first :: second :: _ =>
    if first.toLower = 'd' && !isOctal second then none
    else
      match Text.readInt 16 number with
      | .ok (some (.ofNat n)) => CodePoint.ofNat? n
      | _ => none
  | _ => none

/-- Reads the number of a long escape. Something follows it, if only the closing quote. -/
def readPoint (count : Nat) (t : Text) : Reading CodePoint :=
  match t.drop count, namedPoint? (t.take count) with
  | c :: rest, some point => .ok (point, c :: rest)
  | _, _ => .error (.invalid t)

/-- Reads an escape after its backslash. -/
def readEscape (t : Text) : Reading CodePoint :=
  match t with
  | [] => .error (.invalid [])
  | c :: rest =>
    if c = 'u' then readPoint 4 rest
    else if c = 'U' then readPoint 8 rest
    else match shortEscape? c with
      | some e => .ok (e, rest)
      | none => .error (.invalid t)

/-- Reads a basic string on one line after its opening quote. -/
def readBasic : (fuel : Nat) → (done : Text) → Text → Reading Text
  | 0, _, t => .error (.invalid t)
  | _ + 1, _, [] => .error (.invalid [])
  | fuel + 1, done, c :: rest =>
    if c = '"' then .ok (done.reverse, rest)
    else if c = '\\' then
      match readEscape rest with
      | .error stop => .error stop
      | .ok (e, after) => readBasic fuel (e :: done) after
    else if isForbidden c then .error (.invalid (c :: rest))
    else readBasic fuel (c :: done) rest

/-- Reads a literal string on one line after its opening quote. -/
def readLiteral (done : Text) : Text → Reading Text
  | [] => .error (.invalid [])
  | c :: rest =>
    if c = '\x27' then .ok (done.reverse, rest)
    else if isForbidden c then .error (.invalid (c :: rest))
    else readLiteral (c :: done) rest

/-- The text after a newline at its front. -/
def dropNewline (t : Text) : Text :=
  match t with
  | c :: rest =>
    if c = '\n' then rest
    else if c = '\r' then
      match rest with
      | d :: after => if d = '\n' then after else t
      | [] => t
    else t
  | [] => t

/-- Reads a string between tripled quotes after the opening ones. -/
def readTripled (quote : CodePoint) (escapes : Bool) :
    (fuel : Nat) → (done : Text) → Text → Reading Text
  | 0, _, t => .error (.invalid t)
  | _ + 1, _, [] => .error (.invalid [])
  | fuel + 1, done, c :: rest =>
    if c = quote then
      let (more, after) := rest.span (· = quote)
      let quotes := 1 + more.length
      if quotes < 3 then readTripled quote escapes fuel (List.replicate quotes quote ++ done) after
      else if quotes < 6 then
        .ok ((List.replicate (quotes - 3) quote ++ done).reverse, after)
      else .error (.invalid (c :: rest))
    else if escapes && c = '\\' then
      match rest with
      | [] => .error (.invalid [])
      | e :: _ =>
        if isGap e then
          let (gap, after) := rest.span isGap
          if gap.contains '\n' then readTripled quote escapes fuel done after
          else .error (.invalid rest)
        else
          match readEscape rest with
          | .error stop => .error stop
          | .ok (e, after) => readTripled quote escapes fuel (e :: done) after
    else if isForbidden c && c ≠ '\n' && c ≠ '\r' then .error (.invalid (c :: rest))
    else readTripled quote escapes fuel (c :: done) rest

/-- Reads a string of any kind that starts with the quote. -/
def readString (fuel : Nat) (quote : CodePoint) (t : Text) : Reading Text :=
  match Text.dropFront? [quote, quote, quote] t with
  | some rest => readTripled quote (quote = '"') fuel [] (dropNewline rest)
  | none =>
    if quote = '"' then readBasic fuel [] (t.drop 1) else readLiteral [] (t.drop 1)

end SourceReport.Data.Toml
