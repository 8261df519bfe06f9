import SourceReport.Text.CodePoint

/-!
# Texts

A `Text` is a list of code points. Character literals and string literals stand for code points
and texts where one is expected.

* `utf8Length`, `units16` and `length` measure a text in bytes, UTF-16 units and characters;
* `loneSurrogate?` finds what has no UTF-8 encoding;
* `rows` takes a text apart at its newlines, `join` puts texts together.
-/

namespace SourceReport

/-- A text is a list of code points. -/
abbrev Text := List CodePoint

namespace Text

/-- The text of a string. -/
def ofString (s : String) : Text := s.toList.map .ofChar

instance : Coe String Text := ⟨ofString⟩

/-- `n` times the same code point. -/
def repeated (n : Nat) (c : CodePoint) : Text := List.replicate n c

/-- `n` spaces. -/
def spaces (n : Nat) : Text := repeated n ' '

/-! ## Measures -/

/-- The number of bytes of the UTF-8 encoding. -/
def utf8Length : Text → Nat
  | [] => 0
  | c :: rest => c.utf8Width + utf8Length rest

/-- The number of UTF-16 code units. -/
def units16 : Text → Nat
  | [] => 0
  | c :: rest => c.units16 + units16 rest

/-- The UTF-8 encoding, with surrogates encoded like other code points. -/
def utf8 (t : Text) : List UInt8 := t.flatMap CodePoint.utf8

@[simp] theorem utf8Length_nil : utf8Length [] = 0 := rfl

@[simp] theorem utf8Length_cons (c : CodePoint) (t : Text) :
    utf8Length (c :: t) = c.utf8Width + utf8Length t := rfl

@[simp] theorem utf8Length_append (a b : Text) :
    utf8Length (a ++ b) = utf8Length a + utf8Length b := by
  induction a with
  | nil => simp
  | cons c a ih => simp [ih, Nat.add_assoc]

@[simp] theorem units16_nil : units16 [] = 0 := rfl

@[simp] theorem units16_cons (c : CodePoint) (t : Text) :
    units16 (c :: t) = c.units16 + units16 t := rfl

@[simp] theorem units16_append (a b : Text) : units16 (a ++ b) = units16 a + units16 b := by
  induction a with
  | nil => simp
  | cons c a ih => simp [ih, Nat.add_assoc]

theorem length_utf8 (t : Text) : t.utf8.length = t.utf8Length := by
  induction t with
  | nil => rfl
  | cons c t ih => simp_all [utf8, CodePoint.length_utf8]

/-- The position of the first surrogate, if there is one. -/
def loneSurrogate? (t : Text) : Option Nat := t.findIdx? (·.isSurrogate)

/-! ## Separators -/

/-- The rows of a text that a newline separates. -/
def rows (t : Text) : List Text := t.splitOn '\n'

/-- The texts in order with a separator between neighbours. -/
def join (separator : Text) (ts : List Text) : Text := List.intercalate separator ts

/-- Whether `piece` occurs at the front of the text, and what follows it. -/
def dropFront? : Text → Text → Option Text
  | [], t => some t
  | _ :: _, [] => none
  | p :: piece, c :: t => if p = c then dropFront? piece t else none

/-- The text with its ASCII capitals in lower case. -/
def toLower (t : Text) : Text := t.map CodePoint.toLower

/-- The text as a string, each surrogate replaced by U+FFFD. -/
def toStr (t : Text) : String :=
  String.ofList (t.map fun c => Char.ofNat (if c.isSurrogate then 0xFFFD else c.val))

end Text

end SourceReport
