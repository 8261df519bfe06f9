import SourceReport.Text.Blank

/-!
# Choices

A `Choice` is a small set of alternatives that users name by words: each has a key, which is how it
is written, a label that explains it, and further words by which it may be named.

* `Choice.parse?` finds the alternative of a word. Letter case does not count; for a loose choice
  neither do blanks around the word, and `-` and the space stand for `_`.
* `Choice.completions` lists the keys that a word may grow into.
-/

namespace SourceReport

/-- A set of alternatives that users name by words. -/
class Choice (α : Type) where
  /-- What the choice as a whole is called. -/
  title : Text
  /-- The alternatives in the order in which they are listed. -/
  all : List α
  /-- How an alternative is written. -/
  key : α → Text
  /-- What an alternative means. -/
  label : α → Text := fun _ => []
  /-- Further words for an alternative. -/
  aliases : α → List Text := fun _ => []
  /-- Whether blanks around a word and the kind of separator inside it do not count. -/
  loose : Bool := true

namespace Choice

/-- A word with what does not count taken out. -/
def token (loose : Bool) (word : Text) : Text :=
  if loose then word.trim.toLower.map fun c : CodePoint => if c = '-' || c = ' ' then '_' else c
  else word.toLower

variable (α : Type) [Choice α]

/-- The keys in order. -/
def keys : List Text := (all : List α).map key

/-- The keys that start with a word, whatever its letter case. -/
def completions (word : Text) : List Text :=
  (keys α).filter fun k => (Text.dropFront? word.toLower k).isSome

/-- What is said of a word that names no alternative. -/
def refusal (word : Text) : Text :=
  "Invalid value '" ++ word ++ "'. Must be one of: " ++ Text.join ", " (keys α)

variable {α}

/-- Whether a word names an alternative. -/
def isNamed (word : Text) (a : α) : Bool :=
  (key a :: aliases a).any fun w => token (loose α) w = token (loose α) word

/-- The alternative that a word names. -/
def parse? (word : Text) : Option α := (all : List α).find? (isNamed word)

end Choice

end SourceReport
