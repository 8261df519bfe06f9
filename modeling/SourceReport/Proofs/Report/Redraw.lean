import Mathlib.Data.List.Find
import SourceReport.Proofs.Report.Body
import SourceReport.Proofs.Report.Margin
import SourceReport.Proofs.Report.Repair

/-!
# Drawing repaired labels

Margins, connectors and messages are drawn by the placements and the styles of the labels. Neither
changes when labels are repaired, so these parts of a snippet are drawn as before, cell by cell.

Results:
* `Lanes.at?_repaired`, `Lanes.lastBefore?_repaired`: the labels found for a cell of a margin.
* `Snippet.IsLaidOut.endingMessages_repaired`: the messages of labels of several lines.
* `Marks.markMessages_repaired`: those of labels of one line.
* `Snippet.sourceRow_repaired`, `Snippet.IsLaidOut.skippedRow_repaired`: source lines, and the rows
  in place of those that are not shown.
-/

namespace SourceReport

/-! ## Margins -/

namespace Lanes

variable {lanes : Lanes} {s : Source}

theorem marginSize_repaired (s : Source) (lanes : Lanes) :
    (lanes.repaired s).marginSize = lanes.marginSize := by
  rw [marginSize, marginSize, count_repaired]

/-- The label of a cell is the same one. -/
theorem at?_repaired (holds holds' : Placement → Bool)
    (h : ∀ e ∈ lanes, holds' (e.1.repaired s) = holds e.1) (cell : Nat) :
    (lanes.repaired s).at? holds' cell = (lanes.at? holds cell).map (·.repaired s) := by
  unfold at? repaired
  have hfind : lanes.find? ((fun e => decide (2 * e.2 = cell ∧ holds' e.1 = true)) ∘
      fun e => (e.1.repaired s, e.2)) =
        lanes.find? fun e => decide (2 * e.2 = cell ∧ holds e.1 = true) := by
    refine List.find?_congr fun e he => ?_
    dsimp only [Function.comp_apply]
    rw [h e he]
  rw [List.find?_map, Option.map_map, Option.map_map, hfind]
  rfl

theorem lead_repaired (s : Source) (line cell : Nat) (best : Option (Placement × Nat))
    (e : Placement × Nat) :
    lead (·.endsAt line) cell (best.map fun e => (e.1.repaired s, e.2)) (e.1.repaired s, e.2) =
      (lead (·.endsAt line) cell best e).map fun e => (e.1.repaired s, e.2) := by
  unfold lead
  rw [apply_ite (Option.map fun e : Placement × Nat => (e.1.repaired s, e.2))]
  cases best <;> rfl

/-- The label whose run passes over a cell is the same one. -/
theorem lastBefore?_repaired (s : Source) (lanes : Lanes) (line cell : Nat) :
    (lanes.repaired s).lastBefore? (·.endsAt line) cell =
      (lanes.lastBefore? (·.endsAt line) cell).map (·.repaired s) := by
  have hfold : ∀ (lanes : Lanes) (best : Option (Placement × Nat)),
      (lanes.repaired s).foldl (lead (·.endsAt line) cell)
          (best.map fun e => (e.1.repaired s, e.2)) =
        (lanes.foldl (lead (·.endsAt line) cell) best).map fun e => (e.1.repaired s, e.2) := by
    intro lanes
    induction lanes with
    | nil => exact fun best => rfl
    | cons e lanes ih =>
      intro best
      rw [repaired, List.map_cons, List.foldl_cons, List.foldl_cons, lead_repaired]
      exact ih _
  have hnone := hfold lanes none
  rw [Option.map_none] at hnone
  rw [lastBefore?_eq, lastBefore?_eq, hnone, Option.map_map, Option.map_map]
  rfl

end Lanes

namespace Snippet

variable (pen : Pen) {snippet : Snippet} (s : Source) {line : Nat}

theorem lanes_repaired : (snippet.repaired s).lanes = snippet.lanes.repaired s := rfl

/-- **Source lines** have the same margin. -/
theorem sourceMargin_repaired (line : Nat) :
    sourceMargin pen (snippet.repaired s) line = sourceMargin pen snippet line := by
  unfold sourceMargin
  rw [lanes_repaired, Lanes.marginSize_repaired]
  refine List.map_congr_left fun cell _ => ?_
  unfold sourceMarginCell
  rw [lanes_repaired, Lanes.marginSize_repaired, Lanes.lastBefore?_repaired,
    Lanes.at?_repaired (·.endsAt line) (·.endsAt line) fun _ _ => rfl,
    Lanes.at?_repaired (·.passes line) (·.passes line) fun _ _ => rfl]
  generalize snippet.lanes.at? (·.endsAt line) cell = ending
  generalize snippet.lanes.at? (·.passes line) cell = passing
  generalize snippet.lanes.lastBefore? (·.endsAt line) cell = before
  cases ending with
  | some p => rfl
  | none =>
    dsimp only [Option.map_none]
    by_cases hrun : pen.settings.arrows = true ∧ cell + 1 < snippet.lanes.marginSize
    · rw [if_pos hrun, if_pos hrun]
      cases before <;> cases passing <;> rfl
    · rw [if_neg hrun, if_neg hrun]
      cases passing <;> rfl

/-- So do rows below a line, if the messages still to come are the same. -/
theorem betweenMargin_repaired (glyph : CodePoint) (line : Nat) {pending : List Placement}
    (hopen : ∀ e ∈ snippet.lanes, (e.1.repaired s).isOpenBelow line
      (pending.map (·.repaired s)) = e.1.isOpenBelow line pending) :
    betweenMargin pen (snippet.repaired s) glyph line (pending.map (·.repaired s)) =
      betweenMargin pen snippet glyph line pending := by
  unfold betweenMargin
  rw [lanes_repaired, Lanes.marginSize_repaired]
  refine List.map_congr_left fun cell _ => ?_
  rw [Lanes.at?_repaired (·.isOpenBelow line pending) _ hopen]
  cases snippet.lanes.at? (·.isOpenBelow line pending) cell <;> rfl

/-- And the first rows of messages. -/
theorem messageMargin_repaired (line : Nat) (p : Placement) (lane : Nat)
    {pending : List Placement}
    (hopen : ∀ e ∈ snippet.lanes, (e.1.repaired s).isOpenBelow line
      (pending.map (·.repaired s)) = e.1.isOpenBelow line pending) :
    messageMargin pen (snippet.repaired s) line (p.repaired s) lane
        (pending.map (·.repaired s)) =
      messageMargin pen snippet line p lane pending := by
  unfold messageMargin
  rw [lanes_repaired, Lanes.marginSize_repaired]
  refine List.map_congr_left fun cell _ => ?_
  unfold messageMarginCell
  rw [lanes_repaired, Lanes.marginSize_repaired,
    Lanes.at?_repaired (·.isOpenBelow line pending) _ hopen]
  generalize snippet.lanes.at? (·.isOpenBelow line pending) cell = passing
  split
  · rfl
  · split <;> cases passing <;> rfl

/-! ## Messages of labels of several lines -/

theorem endings_repaired (line : Nat) :
    (snippet.repaired s).endings line = (snippet.endings line).repaired s := by
  unfold endings
  rw [lanes_repaired, Lanes.repaired, List.filter_map]
  refine (List.map_mergeSort fun a _ b _ => ?_).symm
  rfl

namespace IsLaidOut

variable {pen} (h : snippet.IsLaidOut)

include h

/-- The messages still to come are those of the same labels. -/
theorem isOpenBelow_repaired {pending : List Placement}
    (hpending : ∀ q ∈ pending, q ∈ snippet.labels) {e : Placement × Nat} (he : e ∈ snippet.lanes) :
    (e.1.repaired s).isOpenBelow line (pending.map (·.repaired s)) =
      e.1.isOpenBelow line pending := by
  have hmem := (h.mem_of_mem_lanes he).1
  have hiff : e.1.repaired s ∈ pending.map (·.repaired s) ↔ e.1 ∈ pending := by
    constructor
    · intro hin
      obtain ⟨q, hq, heq⟩ := List.mem_map.1 hin
      have hindex := congrArg Placement.index heq
      change q.index = e.1.index at hindex
      rwa [← h.eq_of_index_eq (hpending q hq) hmem hindex]
    · exact fun hin => List.mem_map.2 ⟨e.1, hin, rfl⟩
  unfold Placement.isOpenBelow
  rw [Bool.eq_iff_iff, decide_eq_true_eq, decide_eq_true_eq, hiff]
  rfl

/-- **The messages of labels of several lines** are drawn as before. -/
theorem endingMessages_repaired (line : Nat) {endings : Lanes}
    (hends : ∀ e ∈ endings, e ∈ snippet.lanes) :
    endingMessages pen (snippet.repaired s) line (endings.repaired s) =
      endingMessages pen snippet line endings := by
  induction endings with
  | nil => rfl
  | cons e later ih =>
    obtain ⟨p, lane⟩ := e
    have hlater : ∀ e ∈ later, e ∈ snippet.lanes := fun e he =>
      hends e (List.mem_cons_of_mem _ he)
    have hpending : ∀ q ∈ later.map (·.1), q ∈ snippet.labels := by
      intro q hq
      obtain ⟨e, he, rfl⟩ := List.mem_map.1 hq
      exact (h.mem_of_mem_lanes (hlater e he)).1
    have hopen : ∀ e ∈ snippet.lanes, (e.1.repaired s).isOpenBelow line
        ((later.map (·.1)).map (·.repaired s)) = e.1.isOpenBelow line (later.map (·.1)) :=
      fun e he => h.isOpenBelow_repaired s hpending he
    have hmap : (Lanes.repaired s later).map (·.1) = (later.map (·.1)).map (·.repaired s) := by
      rw [Lanes.repaired, List.map_map, List.map_map]
      rfl
    have hcons : Lanes.repaired s ((p, lane) :: later) =
        (p.repaired s, lane) :: Lanes.repaired s later := rfl
    rw [hcons, endingMessages, endingMessages, ih hlater, hmap,
      messageMargin_repaired pen s line p lane hopen, betweenMargin_repaired pen s _ line hopen]
    rfl

end IsLaidOut

end Snippet

/-! ## Labels of one line -/

namespace Marks

variable (pen : Pen) (s : Source)

/-- Labels that are repaired, with their cells. -/
def repaired (s : Source) (marks : Marks) : Marks := marks.map fun m => (m.1.repaired s, m.2)

theorem ofLabels_repaired (display : DisplayLine) (labels : List Placement) :
    ofLabels pen display (labels.map (·.repaired s)) =
      (ofLabels pen display labels).repaired s := by
  rw [ofLabels, repaired, ofLabels, List.map_map, List.map_map]
  rfl

theorem withMessages_repaired (display : DisplayLine) (labels : List Placement) :
    ((ofLabels pen display labels).repaired s).withMessages =
      (ofLabels pen display labels).withMessages.repaired s := by
  rw [← ofLabels_repaired, withMessages_ofLabels, withMessages_ofLabels,
    Placement.messageOrder_map, ofLabels_repaired]

theorem attachedAt?_repaired (marks : Marks) (cell : Nat) :
    (marks.repaired s).attachedAt? cell = (marks.attachedAt? cell).map (·.repaired s) := by
  unfold attachedAt? repaired
  rw [List.find?_map, Option.map_map, Option.map_map]
  rfl

theorem hangingCell_repaired (later : Marks) (cell : Nat) :
    hangingCell pen (later.repaired s) cell = hangingCell pen later cell := by
  unfold hangingCell
  rw [attachedAt?_repaired]
  cases later.attachedAt? cell <;> rfl

theorem connectorCell_repaired (later : Marks) (p : Placement) (own cell : Nat) :
    connectorCell pen (later.repaired s) (p.repaired s) own cell =
      connectorCell pen later p own cell := by
  unfold connectorCell
  rw [attachedAt?_repaired, hangingCell_repaired, Option.isSome_map]
  rfl

theorem messageColumn_repaired (marks : Marks) :
    (marks.repaired s).messageColumn = marks.messageColumn := by
  rw [messageColumn, messageColumn, repaired, List.map_map]
  rfl

theorem width_repaired (marks : Marks) : (marks.repaired s).width = marks.width := by
  rw [width, width, repaired, List.map_map]
  rfl

/-- **The messages of labels of one line** are drawn as before. -/
theorem markMessages_repaired (margin : List Cell) (column : Nat) (marks : Marks) :
    Snippet.markMessages pen margin column (marks.repaired s) =
      Snippet.markMessages pen margin column marks := by
  induction marks with
  | nil => rfl
  | cons m later ih =>
    obtain ⟨p, range⟩ := m
    have hconnectors : connectors pen column (repaired s later) (p.repaired s) range.attach =
        connectors pen column later p range.attach :=
      List.map_congr_left fun cell _ => connectorCell_repaired pen s later p range.attach cell
    have hhanging : hanging pen column (repaired s later) = hanging pen column later :=
      List.map_congr_left fun cell _ => hangingCell_repaired pen s later cell
    have hcons : repaired s ((p, range) :: later) = (p.repaired s, range) :: repaired s later := rfl
    rw [hcons, Snippet.markMessages, Snippet.markMessages, ih, hconnectors, hhanging]
    rfl

end Marks

/-! ## Rows -/

namespace Snippet

variable (pen : Pen) {snippet : Snippet} (s : Source)

theorem marksOn_repaired (line : Nat) (display : DisplayLine) :
    marksOn pen (snippet.repaired s) line display =
      (marksOn pen snippet line display).repaired s := by
  unfold marksOn repaired
  rw [List.filter_map, Marks.ofLabels_repaired]
  rfl

theorem sourceRow_repaired (line : Nat) (display : DisplayLine) :
    sourceRow pen (snippet.repaired s) line display = sourceRow pen snippet line display := by
  rw [sourceRow, sourceRow, sourceMargin_repaired]

theorem IsLaidOut.skippedRow_repaired (h : snippet.IsLaidOut) (first count : Nat) :
    skippedRow pen (snippet.repaired s) first count = skippedRow pen snippet first count := by
  have hmargin : betweenMargin pen (snippet.repaired s) pen.glyphs.verticalGap (first - 1) [] =
      betweenMargin pen snippet pen.glyphs.verticalGap (first - 1) [] :=
    betweenMargin_repaired pen s _ _ fun e he =>
      h.isOpenBelow_repaired s (fun q hq => absurd hq List.not_mem_nil) he
  rw [skippedRow, skippedRow, hmargin]

end Snippet

end SourceReport
