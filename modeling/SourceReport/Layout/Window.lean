import SourceReport.Layout.Placement

/-!
# Windows

The part of a source that a report shows. Labels of one line show that line, labels of several lines
their two ends with context around them (`Placement.shows`). Short gaps between these lines are
filled, long ones become one entry of skipped lines (`Window.ofLines`).
-/

namespace SourceReport

/-- An entry of a window. -/
inductive WindowEntry where
  /-- A line that is printed. -/
  | line (index : Nat)
  /-- A run of lines that is not. -/
  | skipped (first count : Nat)
deriving DecidableEq

/-- What a report shows of a source, in order. -/
abbrev Window := List WindowEntry

/-- Whether a line is an end of the label or belongs to the context of one. Negative amounts of
context count as none. -/
def Placement.shows (before after : Int) (p : Placement) (line : Nat) : Bool :=
  if p.isMultiline then
    [p.firstLine, p.lastLine].any fun anchor =>
      anchor ≤ line + before.toNat ∧ line ≤ anchor + after.toNat
  else line = p.firstLine

/-- The lines that labels show, in ascending order. -/
def visibleLines (ps : List Placement) (lineCount : Nat) (before after : Int) : List Nat :=
  (List.range lineCount).filter fun line => ps.any (·.shows before after line)

namespace Window

/-- The entries for the lines strictly between two lines. A gap of no more lines than the threshold
is filled. -/
def between (threshold : Int) (previous next : Nat) : Window :=
  let count := next - previous - 1
  if count = 0 then []
  else if count ≤ threshold.toNat then (List.range count).map fun n => .line (previous + 1 + n)
  else [.skipped (previous + 1) count]

/-- The entries after a line that has been shown already. -/
def onward (threshold : Int) (previous : Nat) : List Nat → Window
  | [] => []
  | line :: rest => between threshold previous line ++ .line line :: onward threshold line rest

/-- The window of the lines to be shown. -/
def ofLines (threshold : Int) : List Nat → Window
  | [] => []
  | line :: rest => .line line :: onward threshold line rest

/-- The index of the last line that is printed. -/
def lastLine? (w : Window) : Option Nat :=
  (w.filterMap fun
    | .line index => some index
    | .skipped .. => none).max?

end Window

end SourceReport
