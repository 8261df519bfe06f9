import SourceReport.Data.Toml.Quoted

/-!
# Keys of TOML

A key has parts with points between them. A part is a string on one line, or bare: letters, digits,
hyphens and underscores.

* Blanks around a part do not belong to it. A bare part may hold tabs, but no spaces.
-/

namespace SourceReport.Data.Toml

/-- The parts of a key, of which there is at least one. -/
structure KeyPath where
  head : Text
  tail : List Text
deriving DecidableEq

/-- The parts in order. -/
def KeyPath.toList (p : KeyPath) : List Text := p.head :: p.tail

/-- A code point of a bare part. -/
def isBare (c : CodePoint) : Bool :=
  c.isAsciiLetter || c.isAsciiDigit || c = '-' || c = '_'

/-- The text without the blanks of a line at its end. -/
def dropSpacesEnd (t : Text) : Text := (t.reverse.dropWhile isSpace).reverse

/-- Reads a quoted part. A string between tripled quotes is none. -/
def readQuotedPart (fuel : Nat) (quote : CodePoint) (t : Text) : Except Stop (Text × Text) := do
  let (part, rest) ← readString fuel quote t
  if (Text.dropFront? [quote, quote, quote] t).isSome then throw (.unexpected rest)
  return (part, rest)

/-- Reads a bare part. -/
def readBarePart (t : Text) : Reading Text :=
  let (run, rest) := t.span fun c : CodePoint => isBare c || isSpace c
  let part := dropSpacesEnd run
  if part.isEmpty || part.contains ' ' then .error (.invalid rest) else .ok (part, rest)

/-- Reads a part of a key and the blanks around it. -/
def readKeyPart (fuel : Nat) (t : Text) : Reading Text :=
  match t.dropWhile isSpace with
  | [] => .error (.invalid [])
  | c :: rest =>
    if c = '"' || c = '\x27' then
      (readQuotedPart fuel c (c :: rest)).map fun (part, after) => (part, after.dropWhile isSpace)
    else readBarePart (c :: rest)

/-- Reads a key. -/
def readKey : (fuel : Nat) → Text → Except Stop (KeyPath × Text)
  | 0, t => .error (.invalid t)
  | fuel + 1, t => do
    let (part, after) ← readKeyPart fuel t
    match after with
    | c :: rest =>
      if c = '.' then
        let (more, rest) ← readKey fuel rest
        return (⟨part, more.toList⟩, rest)
      else return (⟨part, []⟩, c :: rest)
    | [] => return (⟨part, []⟩, [])

end SourceReport.Data.Toml
