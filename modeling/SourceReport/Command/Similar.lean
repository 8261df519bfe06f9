import SourceReport.Text.Basic

/-!
# Similar words

How alike two words are: their longest common block is taken out, then the longest common blocks of
what is left of it and right of it, and so on. Twice the number of characters in the blocks, as a
share of all characters, is the likeness.

* `Similar.closest` answers the words that are most like a given one, three at most.
-/

namespace SourceReport.Similar

/-- The length of the longest common front of two words. -/
def commonFront : Text → Text → Nat
  | c :: a, d :: b => if c = d then commonFront a b + 1 else 0
  | _, _ => 0

/-- A common block of two words. -/
structure Block where
  first : Nat
  second : Nat
  length : Nat

/-- The longest common block; of several the one that comes first in the first word, then in the
second one. -/
def longest (a b : Text) : Block :=
  let starts := (List.range a.length).flatMap fun i => (List.range b.length).map fun j => (i, j)
  starts.foldl (fun best (i, j) =>
    let n := commonFront (a.drop i) (b.drop j)
    if best.length < n then ⟨i, j, n⟩ else best) ⟨0, 0, 0⟩

/-- The number of characters in the common blocks. Each block takes at least one character. -/
def matched : (fuel : Nat) → Text → Text → Nat
  | 0, _, _ => 0
  | fuel + 1, a, b =>
    let block := longest a b
    if block.length = 0 then 0
    else
      block.length + matched fuel (a.take block.first) (b.take block.second)
        + matched fuel (a.drop (block.first + block.length))
          (b.drop (block.second + block.length))

/-- The likeness of two words as the two parts of a fraction. -/
def likeness (a b : Text) : Nat × Nat := (2 * matched a.length a b, a.length + b.length)

/-- Whether a likeness is at least three fifths. -/
def isClose (l : Nat × Nat) : Bool := 3 * l.2 ≤ 5 * l.1

/-- The order of texts by their code points. -/
def textBefore : Text → Text → Bool
  | [], _ => true
  | _ :: _, [] => false
  | c :: a, d :: b => if c = d then textBefore a b else c.val < d.val

/-- Whether a likeness is greater than another one, or equal with a word that is not before the
other one. -/
def closer (a b : (Nat × Nat) × Text) : Bool :=
  let left := a.1.1 * b.1.2
  let right := b.1.1 * a.1.2
  if left = right then textBefore b.2 a.2 else right < left

/-- The words most like a given one, three at most, in the order of texts. -/
def closest (word : Text) (words : List Text) : List Text :=
  let rated := words.map fun w : Text => (likeness w word, w)
  let close := (rated.filter fun r => isClose r.1).mergeSort closer
  ((close.take 3).map (·.2)).mergeSort textBefore

end SourceReport.Similar
