import SourceReport.Layout.Placement

/-!
# Orders of labels

Labels are ordered by keys, lists of numbers compared from the front.

* `messageOrder` is the order of the messages below a line: by the order that the label asks for,
  the higher priority first, then as declared.
* `laneOrder` is the order in which labels of several lines choose their lanes.
* `owner?` is the label that owns a cell which several labels cover.
-/

namespace SourceReport

/-- Compares keys from the front. -/
def keyLe : List Int → List Int → Bool
  | [], _ => true
  | _ :: _, [] => false
  | a :: as, b :: bs => a < b || (a == b && keyLe as bs)

namespace Placement

/-- Labels in ascending order of their keys. -/
def sortOn (key : Placement → List Int) (ps : List Placement) : List Placement :=
  ps.mergeSort fun a b => keyLe (key a) (key b)

/-- The key of the order of messages. -/
def messageKey (p : Placement) : List Int := [p.label.order, -p.label.rank, p.index]

/-- The labels that have a message, in the order of their messages. -/
def messageOrder (ps : List Placement) : List Placement :=
  sortOn messageKey (ps.filter (·.hasMessage))

/-- The key of the order of lanes: of labels that start together the longer one comes first. -/
def laneKey (p : Placement) : List Int :=
  [p.firstLine, p.label.order, -p.label.rank, -(p.length : Int), p.index]

/-- The labels of several lines, in the order in which they choose their lanes. -/
def laneOrder (ps : List Placement) : List Placement :=
  sortOn laneKey (ps.filter (·.isMultiline))

/-- The key of the claim to shared cells; the least one wins. -/
def claimKey (p : Placement) : List Int :=
  [-p.label.weight.1, -p.label.weight.2, p.index]

/-- The label that owns a cell which all of the labels cover. -/
def owner? (ps : List Placement) : Option Placement := (sortOn claimKey ps).head?

end Placement

end SourceReport
