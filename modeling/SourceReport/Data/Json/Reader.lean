import SourceReport.Data.Reading
import SourceReport.Decimal.Notation

/-!
# Reading JSON

`read?` accepts one JSON value with blanks around it. Beyond the standard it knows the numbers
`NaN`, `Infinity` and `-Infinity`; a surrogate escape that is not half of a pair stands for itself;
of equal keys the last value counts, at the place of the first. A number without fraction and
exponent is an integer, which is refused if it has too many digits; every other number is a double.
Values that stand inside too many others are refused, too (`nestingLimit`).
-/

namespace SourceReport.Data.Json

/-- The blanks of JSON. -/
def isBlank (c : CodePoint) : Bool := c = ' ' || c = '\t' || c = '\n' || c = '\r'

/-- The text after its leading blanks. -/
def skipBlanks (t : Text) : Text := t.dropWhile isBlank

/-- The escapes of one letter. -/
def shortEscape? (c : CodePoint) : Option CodePoint :=
  if c = '"' || c = '\\' || c = '/' then some c
  else if c = 'b' then some '\x08'
  else if c = 'f' then some '\x0c'
  else if c = 'n' then some '\n'
  else if c = 'r' then some '\r'
  else if c = 't' then some '\t'
  else none

/-- The code point of a surrogate pair. -/
def pair (high low : CodePoint) : CodePoint :=
  (CodePoint.ofNat? (0x10000 + (high.val - 0xD800) * 1024 + (low.val - 0xDC00))).getD .replacement

/-- Joins the surrogate pairs of a text, given in reverse; `escaped` tells which code points may be
halves of a pair. -/
def pushUnit (c : CodePoint) (escaped : Bool) : List (CodePoint × Bool) → List (CodePoint × Bool)
  | (high, true) :: rest =>
    if escaped && high.isHighSurrogate && c.isLowSurrogate then (pair high c, false) :: rest
    else (c, escaped) :: (high, true) :: rest
  | done => (c, escaped) :: done

/-- Reads a string after its opening quote, with the code points read so far in reverse. -/
def readString (done : List (CodePoint × Bool)) : Text → Reading Text
  | [] => .error (.invalid [])
  | c :: rest =>
    if c = '"' then .ok ((done.map (·.1)).reverse, rest)
    else if c = '\\' then
      match rest with
      | [] => .error (.invalid [])
      | e :: tail =>
        if e = 'u' then
          match tail with
          | a :: b :: x :: y :: after =>
            match (hexNumber? [a, b, x, y]).bind CodePoint.ofNat? with
            | some u => readString (pushUnit u true done) after
            | none => .error (.invalid tail)
          | _ => .error (.invalid tail)
        else match shortEscape? e with
          | some u => readString (pushUnit u false done) tail
          | none => .error (.invalid rest)
    else if c.val < 32 then .error (.invalid (c :: rest))
    else readString (pushUnit c false done) rest

/-- Reads the number after its sign. -/
def readMagnitude (negative : Bool) (t : Text) : Reading Value :=
  let whole : Text × Text := match t with
    | c :: rest => if c = '0' then ([c], rest) else Decimal.digits t
    | [] => ([], t)
  match whole with
  | ([], _) => .error (.invalid t)
  | (ds, rest) =>
    let fraction := Decimal.fraction? rest
    let afterFraction := (fraction.map (·.2)).getD rest
    let exponent := Decimal.exponent? afterFraction
    match fraction, exponent with
    | none, none =>
      match Text.readDigits ds with
      | .error e => .error (.refused (.digits e))
      | .ok n => .ok (.int (if negative then -(n : Int) else n), rest)
    | _, _ =>
      let x := Decimal.ofParts negative ds ((fraction.map (·.1)).getD [])
        ((exponent.map (·.1)).getD 0)
      .ok (.float x, (exponent.map (·.2)).getD afterFraction)

/-- Reads a number or one of the three named ones. -/
def readNumber (t : Text) : Reading Value :=
  match t with
  | c :: rest =>
    if c = '-' then
      match Text.dropFront? "Infinity" rest with
      | some after => .ok (.float (-1.0 / 0.0), after)
      | none => readMagnitude true rest
    else readMagnitude false t
  | [] => .error (.invalid [])

/-- The values that are written as names. -/
def names : List (Text × Value) :=
  [("null", .null), ("true", .bool true), ("false", .bool false),
    ("NaN", .float (0.0 / 0.0)), ("Infinity", .float (1.0 / 0.0))]

/-- A named value at the front of the text. -/
def name? (t : Text) : Option (Value × Text) :=
  names.findSome? fun (name, value) => (Text.dropFront? name t).map (value, ·)

/-- Reads a key and the colon after it. -/
def readKey (t : Text) : Reading Text :=
  match t with
  | [] => .error (.invalid [])
  | quote :: afterQuote =>
    if quote = '"' then
      match readString [] afterQuote with
      | .error stop => .error stop
      | .ok (key, afterKey) =>
        match skipBlanks afterKey with
        | [] => .error (.invalid [])
        | c :: rest => if c = ':' then .ok (key, rest) else .error (.invalid (c :: rest))
    else .error (.invalid t)

mutual

/-- Reads a value. `room` is the number of lists and tables that may stand inside each other. -/
def readValue : (fuel : Nat) → (room : Nat) → Text → Reading Value
  | 0, _, t => .error (.invalid t)
  | fuel + 1, room, t =>
    match t with
    | [] => .error (.invalid [])
    | c :: rest =>
      if c = '"' then (readString [] rest).map fun (s, after) => (.text s, after)
      else if c = '[' then
        match room, skipBlanks rest with
        | 0, _ => .error (.refused (.nesting (some "JSON array")))
        | _, [] => .error (.invalid [])
        | room + 1, d :: after =>
          if d = ']' then .ok (.list [], after)
          else (readItems fuel room [] (d :: after)).map fun (vs, after) => (.list vs, after)
      else if c.val = 0x7B then
        match room, skipBlanks rest with
        | 0, _ => .error (.refused (.nesting (some "JSON object")))
        | _, [] => .error (.invalid [])
        | room + 1, d :: after =>
          if d.val = 0x7D then .ok (.table [], after)
          else (readEntries fuel room [] (d :: after)).map fun (es, after) => (.table es, after)
      else match name? t with
        | some found => .ok found
        | none => readNumber t

/-- Reads the items of a list and the closing bracket. -/
def readItems : (fuel : Nat) → (room : Nat) → List Value → Text → Reading (List Value)
  | 0, _, _, t => .error (.invalid t)
  | fuel + 1, room, done, t =>
    match readValue fuel room (skipBlanks t) with
    | .error stop => .error stop
    | .ok (v, after) =>
      match skipBlanks after with
      | [] => .error (.invalid [])
      | c :: rest =>
        if c = ',' then readItems fuel room (v :: done) rest
        else if c = ']' then .ok ((v :: done).reverse, rest)
        else .error (.invalid (c :: rest))

/-- Reads the entries of a table and the closing brace. -/
def readEntries : (fuel : Nat) → (room : Nat) → Table → Text → Reading Table
  | 0, _, _, t => .error (.invalid t)
  | fuel + 1, room, done, t =>
    match readKey (skipBlanks t) with
    | .error stop => .error stop
    | .ok (key, afterKey) =>
      match readValue fuel room (skipBlanks afterKey) with
      | .error stop => .error stop
      | .ok (v, after) =>
        match skipBlanks after with
        | [] => .error (.invalid [])
        | c :: rest =>
          if c = ',' then readEntries fuel room (Table.set key v done) rest
          else if c.val = 0x7D then .ok (Table.set key v done, rest)
          else .error (.invalid (c :: rest))

end

/-- The number of lists and tables that may stand inside each other. -/
def nestingLimit : Nat := 985

/-- Reads a text as one JSON value. Each value takes at least one code point, so the length of the
text bounds the depth of the recursion. -/
def read? (t : Text) : Except FormatError Value :=
  match readValue (2 * t.length + 2) nestingLimit (skipBlanks t) with
  | .error stop => .error (.ofStop t stop)
  | .ok (v, rest) =>
    match skipBlanks rest with
    | [] => .ok v
    | rest => .error (.malformed (.before t rest.length))

end SourceReport.Data.Json
