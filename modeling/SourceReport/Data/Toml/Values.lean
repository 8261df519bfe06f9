import SourceReport.Data.Toml.Moment
import SourceReport.Data.Toml.Number
import SourceReport.Data.Toml.Tree

/-!
# Values of TOML

`readValue` reads a value: a string, a truth value, a number, a date or time, a list, or an inline
table.

* Lists may stretch over several lines, with comments in them and a comma behind the last item.
  Inline tables stand on one line, and no comma is behind their last entry.
* Lists and inline tables inside each other have room for some hundreds of them (`nestingRoom`).
* An item that stops unexpectedly in front of a closing bracket is left out, and the bracket closes
  its list. At any other place nothing is read.

Each step of a reader takes a code point, or leads to one that does, so fuel above twice the length
of the text is never used up.
-/

namespace SourceReport.Data.Toml

/-- What ends a number, a date or a name. -/
def isDelimiter (c : CodePoint) : Bool :=
  isGap c || c = '#' || c = ',' || c = ']' || c.val = 0x7D

/-- The text after the blanks, newlines and comments at its front. `comment` tells whether it starts
inside a comment. -/
def skipLines (comment : Bool) : Text → Except Stop Text
  | [] => .ok []
  | c :: rest =>
    if c = '\n' || c = '\r' then skipLines false rest
    else if comment then
      if isForbidden c then .error (.invalid (c :: rest)) else skipLines true rest
    else if isSpace c then skipLines false rest
    else if c = '#' then skipLines true rest
    else .ok (c :: rest)

/-- Reads a given word. -/
def readWord (word : Text) (v : Value) (t : Text) : Reading Value :=
  match Text.dropFront? word t with
  | some rest => .ok (v, rest)
  | none => .error (.unexpected t)

/-- Reads a number. -/
def readNumber (t : Text) : Reading Value :=
  let (raw, rest) := t.span (!isDelimiter ·)
  match number? raw with
  | some v => .ok (v, rest)
  | none => .error (.invalid t)

/-- Reads a date, a time or a number that starts with a digit. What follows a date up to the end of
the line or of an item must be blank or a time of that date. -/
def readScalar (t : Text) : Reading Value :=
  let (raw, rest) := t.span (!isDelimiter ·)
  match moment? raw with
  | some (.date d) =>
    let (more, after) := rest.span fun c : CodePoint => c = ' ' || !isDelimiter c
    let time := Text.trimEnd more
    if time.isEmpty then .ok (.date d, after)
    else match moment? (raw ++ time) with
      | some v => .ok (v, after)
      | none => .error (.invalid after)
  | some v => .ok (v, rest)
  | none => readNumber t

/-- Whether the word in front of the next delimiter names a number. -/
def namesNumber (t : Text) : Bool :=
  let word := t.takeWhile (!isDelimiter ·)
  word = "inf" || word = "nan"

/-- The text behind the sign of equality that follows a key, with blanks around it. -/
def readEquals (found : Bool) : Text → Except Stop Text
  | [] => if found then .ok [] else .error (.unexpected [])
  | c :: rest =>
    if c = '=' then
      if found then .error (.unexpected (c :: rest)) else readEquals true rest
    else if isSpace c then readEquals found rest
    else if found then .ok (c :: rest)
    else .error (.unexpected (c :: rest))

/-- The text behind the bracket that closes a list. -/
def closeList (t : Text) : Except Stop Text :=
  match t with
  | c :: rest => if c = ']' then .ok rest else .error (.unexpected t)
  | [] => .error (.unexpected [])

/-- How much room lists and inline tables have that stand inside each other. -/
def nestingRoom : Nat := 980

/-- The room that is left inside a value that takes some of it. -/
def enter (cost room : Nat) : Except Stop Nat :=
  if room < cost then .error (.refused (.nesting none)) else .ok (room - cost)

mutual

/-- Reads a value. `room` is the room for lists, which take two steps of it, and for inline tables,
which take three. -/
def readValue : (fuel : Nat) → (room : Nat) → Text → Except Stop (Value × Text)
  | 0, _, t => .error (.invalid t)
  | _ + 1, _, [] => .error (.unexpected [])
  | fuel + 1, room, c :: rest => do
    let t := c :: rest
    if c = '"' || c = '\x27' then
      let (s, after) ← readString fuel c t
      return (.text s, after)
    else if c = '[' then
      let (items, after) ← readItems fuel (← enter 2 room) [] rest
      return (.list items, after)
    else if c.val = 0x7B then
      let (entries, after) ← readInline fuel (← enter 3 room) [] true rest
      match entries.finish with
      | .ok table => return (.table table, after)
      | .error e => throw (.refused (.conflict e))
    else if c = 't' then readWord "true" (.bool true) t
    else if c = 'f' then readWord "false" (.bool false) t
    else if c = '+' || c = '-' || namesNumber t then readNumber t
    else if c.isAsciiDigit then readScalar t
    else throw (.unexpected t)

/-- Reads the items of a list and its closing bracket, with the items read so far in reverse. -/
def readItems : (fuel : Nat) → (room : Nat) → List Value → Text →
    Except Stop (List Value × Text)
  | 0, _, _, t => .error (.invalid t)
  | fuel + 1, room, done, t => do
    let t ← skipLines false t
    match readValue fuel room t with
    | .error (.unexpected stop) => return (done.reverse, ← closeList stop)
    | .error stop => throw stop
    | .ok (v, after) =>
      match ← skipLines false after with
      | c :: rest =>
        if c = ',' then readItems fuel room (v :: done) rest
        else return ((v :: done).reverse, ← closeList (c :: rest))
      | [] => throw (.unexpected [])

/-- Reads the entries of an inline table and its closing brace; `first` until one is read. -/
def readInline : (fuel : Nat) → (room : Nat) → Entries → (first : Bool) → Text →
    Except Stop (Entries × Text)
  | 0, _, _, _, t => .error (.invalid t)
  | fuel + 1, room, done, first, t =>
    match t.dropWhile isSpace with
    | [] => .error (.invalid [])
    | c :: rest => do
      if c.val = 0x7D && first then return (done, rest)
      if c.val = 0x7D || c = ',' then throw (.unexpected (c :: rest))
      let ((path, v), after) ← readEntry fuel room (c :: rest)
      match done.assign true path v, after.dropWhile isSpace with
      | .error e, _ => throw (.refused (.conflict e))
      | .ok _, [] => throw (.unexpected [])
      | .ok entries, d :: rest =>
        if d = ',' then readInline fuel room entries false rest
        else if d.val = 0x7D then return (entries, rest)
        else throw (.unexpected (d :: rest))

/-- Reads a key, the sign of equality and a value. -/
def readEntry : (fuel : Nat) → (room : Nat) → Text → Except Stop ((KeyPath × Value) × Text)
  | 0, _, t => .error (.invalid t)
  | fuel + 1, room, t => do
    let (path, after) ← readKey fuel t
    let (v, rest) ← readValue fuel room (← readEquals false after)
    return ((path, v), rest)

end

end SourceReport.Data.Toml
