import SourceReport.Style.Basic
import SourceReport.Text.Integer
import SourceReport.Text.Quoted

/-!
# Escape sequences

How styled text is written to a terminal: the sequences that select the attributes, the text, and
the sequence that ends them. A color is written by its name's code, by its index or by its parts;
index 0 and the empty name select nothing.

* `Ansi.paint` writes one run of text, `Ansi.write` a text whose rows are painted one by one, so
  that no sequence stands around a newline.
* `Ansi.strip` takes the sequences out of a text.
-/

namespace SourceReport.Ansi

/-- A name that no terminal knows as a color. -/
structure UnknownColor where
  name : Text
deriving DecidableEq

/-- The message quotes the name. -/
def UnknownColor.message (e : UnknownColor) : Text := "Unknown color " ++ e.name.quoted

/-- The attributes of painted text. What is `none` is not mentioned at all. -/
structure Attributes where
  foreground : Option Color := none
  background : Option Color := none
  bold : Option Bool := none
  dim : Option Bool := none
  underline : Option Bool := none

/-- All attributes of a style. -/
def Attributes.ofStyle (s : Style) : Attributes where
  foreground := s.foreground
  background := s.background
  bold := some s.bold
  underline := some s.underline

/-- The escape character. -/
def escape : CodePoint := ⟨27, by decide⟩

/-- The sequence with some parameters. -/
def sequence (parameters : Text) : Text := escape :: "[" ++ parameters ++ "m"

/-- The code of a color name as a foreground. -/
def nameCode? (name : Text) : Option Nat :=
  if name = "reset" then some 39
  else
    let (base, bright) := Color.splitBright name
    (Color.basicNames.idxOf? base).map ((if bright then 90 else 30) + ·)

/-- The parameters that select a color; `offset` moves them from foreground to background. -/
def colorParameters (offset : Nat) : Color → Except UnknownColor Text
  | .named name =>
    match nameCode? name with
    | some code => .ok (Text.ofNat (code + offset))
    | none => .error ⟨name⟩
  | .indexed n => .ok (Text.ofNat (38 + offset) ++ ";5;" ++ Text.ofInt n)
  | .rgb r g b =>
    .ok (Text.ofNat (38 + offset) ++ ";2;" ++ Text.join ";" ([r, g, b].map Text.ofInt))

/-- Whether a color selects anything. -/
def selects : Color → Bool
  | .named name => !name.isEmpty
  | .indexed n => n ≠ 0
  | .rgb .. => true

/-- The sequence that selects a color. -/
def colorSequence (offset : Nat) (c : Option Color) : Except UnknownColor Text :=
  match c.filter selects with
  | none => .ok []
  | some c => (colorParameters offset c).map sequence

/-- The sequence that turns an attribute on or off. -/
def switchSequence (on off : Text) : Option Bool → Text
  | none => []
  | some b => sequence (if b then on else off)

/-- A text with attributes. -/
def paint (a : Attributes) (t : Text) : Except UnknownColor Text :=
  match colorSequence 0 a.foreground with
  | .error e => .error e
  | .ok foreground =>
    match colorSequence 10 a.background with
    | .error e => .error e
    | .ok background =>
      .ok (foreground ++ background ++ switchSequence "1" "22" a.bold
        ++ switchSequence "2" "22" a.dim ++ switchSequence "4" "24" a.underline ++ t
        ++ sequence "0")

/-- A text with attributes, painted row by row. Empty rows stay as they are. -/
def write (s : Style) (t : Text) : Except UnknownColor Text :=
  if s.isPlain then .ok t
  else
    let row (r : Text) : Except UnknownColor Text :=
      if r.isEmpty then .ok r else paint (.ofStyle s) r
    ((Text.rows t).mapM row).map (Text.join "\n")

/-! ## Taking sequences out -/

/-- A character that may stand between the bracket and the letter of a sequence. -/
def isParameter (c : CodePoint) : Bool := c = ';' || c = '?' || c.isAsciiDigit

/-- The text after a sequence at its front. -/
def dropSequence? (t : Text) : Option Text :=
  match t with
  | e :: b :: rest =>
    if e = escape ∧ b = '[' then
      match rest.dropWhile isParameter with
      | c :: after => if c.isAsciiLetter then some after else none
      | [] => none
    else none
  | _ => none

/-- The text without its sequences. Each step takes at least one character. -/
def stripFrom : (fuel : Nat) → Text → Text
  | 0, t => t
  | _, [] => []
  | fuel + 1, c :: rest =>
    match dropSequence? (c :: rest) with
    | some after => stripFrom fuel after
    | none => c :: stripFrom fuel rest

/-- The text without its sequences. -/
def strip (t : Text) : Text := stripFrom t.length t

end SourceReport.Ansi
