import SourceReport.Layout.Order

/-!
# Lanes

Labels of several lines are drawn beside the source in lanes, numbered from the left. Each label
takes the first lane that is free, and a lane is free once its last label ended on an earlier line.

* `Lanes.assign` gives every label of several lines its lane.
-/

namespace SourceReport

/-- The labels that have a lane, with their lanes. -/
abbrev Lanes := List (Placement × Nat)

namespace Lanes

/-- The first lane whose last label ended before a line; a new one if there is none. `ends` holds
the last line of each lane. -/
def firstFree (line : Nat) (ends : List Nat) : Nat :=
  (ends.findIdx? (· < line)).getD ends.length

/-- Marks a lane as taken up to a line. -/
def occupy (lane last : Nat) (ends : List Nat) : List Nat :=
  if lane < ends.length then ends.set lane last else ends ++ [last]

/-- Gives lanes to labels in order. -/
def fill (ends : List Nat) : List Placement → Lanes
  | [] => []
  | p :: rest =>
    let lane := firstFree p.firstLine ends
    (p, lane) :: fill (occupy lane p.lastLine ends) rest

/-- The lanes of the labels of several lines. -/
def assign (ps : List Placement) : Lanes := fill [] (Placement.laneOrder ps)

/-- The number of lanes in use. -/
def count (lanes : Lanes) : Nat := lanes.foldl (fun n e => max n (e.2 + 1)) 0

/-- The lane of a label. -/
def lane? (lanes : Lanes) (p : Placement) : Option Nat := lanes.lookup p

end Lanes

end SourceReport
