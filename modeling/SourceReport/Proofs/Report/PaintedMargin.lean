import SourceReport.Proofs.Report.Body
import SourceReport.Proofs.Report.Canvas
import SourceReport.Proofs.Report.Margin

/-!
# Painted margins

A margin can be painted: each label of several lines looks up its lane, puts a stroke on the cell of
the lane, and runs from there towards the source. Later runs go over earlier ones, but a run of a
source line spares the cells of the labels that end there.

* `Snippet.withLanes` looks lanes up, `Pen.runStrokes` is a horizontal run.
* `Snippet.paintBetween`, `paintSource`, `paintMessage` paint the margins of the three kinds of
  rows.

Results:
* `Snippet.IsLaidOut.lastOn?_laneStrokes`: a cell shows the label that takes it.
* `Snippet.IsLaidOut.lastOn?_arms`: a cell shows the run that comes last over it.
* `Snippet.IsLaidOut.lastOn?_sourceStrokes`, `lastOn?_messageStrokes`: what all strokes leave on a
  cell.
* `Snippet.IsLaidOut.paintBetween_eq`, `paintSource_eq`, `paintMessage_eq`: every lane is found,
  every stroke lies in the margin, and the margin is the one that asks each cell.
-/

namespace SourceReport

/-- A list of computations that succeed. -/
theorem mapM_eq_ok {α β ε : Type} {f : α → Except ε β} {g : α → β} {xs : List α}
    (h : ∀ x ∈ xs, f x = .ok (g x)) : xs.mapM f = .ok (xs.map g) := by
  induction xs with
  | nil => rfl
  | cons x xs ih =>
    rw [List.mapM_cons, h x List.mem_cons_self, ih fun y hy => h y (List.mem_cons_of_mem x hy)]
    rfl

/-- The last of elements in ascending order is the largest. -/
theorem le_getLast_of_pairwise {α : Type} {f : α → Nat} {xs : List α} {last x : α}
    (hsorted : xs.Pairwise fun a b => f a ≤ f b) (hlast : xs.getLast? = some last) (hx : x ∈ xs) :
    f x ≤ f last := by
  obtain ⟨front, rfl⟩ := List.getLast?_eq_some_iff.1 hlast
  rcases List.mem_append.1 hx with hx | hx
  · exact (List.pairwise_append.1 hsorted).2.2 x hx last List.mem_cons_self
  · exact Nat.le_of_eq (congrArg f (List.mem_singleton.1 hx))

/-- The lane of a label, looked up by its index. -/
def Lanes.laneOf (lanes : Lanes) (p : Placement) : Except DrawFault Nat :=
  match lanes.find? fun e => e.1.index = p.index with
  | some e => .ok e.2
  | none => .error (.noLane p.index)

/-- A horizontal run of a label over cells, but for those to be kept. -/
def Pen.runStrokes (pen : Pen) (p : Placement) (start stop : Nat) (vertical keep : List Nat) :
    List Stroke :=
  ((List.range' start (stop - start)).filter fun cell => !keep.contains cell).map fun cell =>
    ⟨cell, pen.drawRun p (vertical.contains cell)⟩

theorem Pen.mem_runStrokes {pen : Pen} {p : Placement} {start stop : Nat}
    {vertical keep : List Nat} {s : Stroke} :
    s ∈ pen.runStrokes p start stop vertical keep ↔
      (start ≤ s.cell ∧ s.cell < stop) ∧ s.cell ∉ keep ∧
        s.drawn = pen.drawRun p (vertical.contains s.cell) := by
  unfold runStrokes
  simp only [List.mem_map, List.mem_filter, List.mem_range'_1, Bool.not_eq_true',
    List.contains_eq_mem, decide_eq_false_iff_not]
  constructor
  · rintro ⟨cell, ⟨hrange, hkeep⟩, rfl⟩
    exact ⟨by dsimp only; omega, hkeep, rfl⟩
  · rintro ⟨hrange, hkeep, hdrawn⟩
    exact ⟨s.cell, ⟨by omega, hkeep⟩, by rw [← hdrawn]⟩

/-- What a run leaves on a cell. -/
theorem Pen.lastOn?_runStrokes (pen : Pen) (p : Placement) (start stop cell : Nat)
    (vertical keep : List Nat) :
    lastOn? (pen.runStrokes p start stop vertical keep) cell =
      if start ≤ cell ∧ cell < stop ∧ cell ∉ keep then
        some (pen.drawRun p (vertical.contains cell))
      else none := by
  split
  · next h =>
    refine lastOn?_eq_some ⟨⟨cell, pen.drawRun p (vertical.contains cell)⟩,
      mem_runStrokes.2 ⟨⟨h.1, h.2.1⟩, h.2.2, rfl⟩, rfl⟩ ?_
    rintro s hs rfl
    exact (mem_runStrokes.1 hs).2.2
  · next h =>
    refine lastOn?_eq_none fun s hs => ?_
    rintro rfl
    obtain ⟨hrange, hkeep, -⟩ := mem_runStrokes.1 hs
    exact h ⟨hrange.1, hrange.2, hkeep⟩

namespace Snippet

variable (pen : Pen) (s : Snippet)

/-- The labels of several lines. -/
def multiline : List Placement := s.labels.filter (·.isMultiline)

/-- Labels with their lanes. -/
def withLanes (ps : List Placement) : Except DrawFault Lanes :=
  ps.mapM fun p => do return (p, ← s.lanes.laneOf p)

/-- The cells of lanes. -/
def laneCells (laned : Lanes) : List Nat := laned.map fun e => 2 * e.2

/-- A stroke on the cell of each lane. -/
def laneStrokes (drawn : Placement → Cell) (laned : Lanes) : List Stroke :=
  laned.map fun e => ⟨2 * e.2, drawn e.1⟩

/-- The labels whose connectors pass the rows below a line; those in `pending` end there, and their
messages are still to come. -/
def activeBelow (line : Nat) (pending : List Nat) : List Placement :=
  s.multiline.filter fun p =>
    (p.firstLine ≤ line ∧ line < p.lastLine) ∨ (p.lastLine = line ∧ p.index ∈ pending)

/-- Paints the margin beside rows below a line. -/
def paintBetween (glyph : CodePoint) (line : Nat) (pending : List Nat) :
    Except DrawFault (List Cell) := do
  if s.lanes.marginSize = 0 then return []
  let active ← s.withLanes (s.activeBelow line pending)
  paint s.lanes.marginSize (laneStrokes (pen.draw · glyph) active)

/-- What a label puts on the cell of its lane beside a source line that it touches. -/
def sourceDrawn (line : Nat) (p : Placement) : Cell :=
  if p.endsAt line then pen.draw p (cornerGlyph pen line p) else pen.draw p pen.glyphs.vertical

/-- The run of a label that turns off beside a source line, up to the arrow. -/
def arm (vertical keep : List Nat) (e : Placement × Nat) : List Stroke :=
  let arrow := s.lanes.marginSize - 2
  pen.runStrokes e.1 (2 * e.2 + 1) arrow vertical keep ++ [⟨arrow, pen.draw e.1 pen.glyphs.arrow⟩]

/-- The runs of labels, those in the inner lanes last. -/
def arms (vertical keep : List Nat) (laned : Lanes) : List Stroke :=
  (laned.mergeSort fun a b => a.2 ≤ b.2).flatMap (arm pen s vertical keep)

/-- The runs beside a source line of the labels that end there, among those that touch it. -/
def sourceRuns (line : Nat) (touching : Lanes) : List Stroke :=
  let ends := touching.filter (·.1.endsAt line)
  let vertical := laneCells (touching.filter fun e => !e.1.endsAt line)
  if pen.settings.arrows then arms pen s vertical (laneCells ends) ends else []

/-- Paints the margin beside a source line. -/
def paintSource (line : Nat) : Except DrawFault (List Cell) := do
  if s.lanes.marginSize = 0 then return []
  let touching ← s.withLanes (s.multiline.filter (·.touches line))
  paint s.lanes.marginSize
    (laneStrokes (sourceDrawn pen line) touching ++ sourceRuns pen s line touching)

/-- The run from the lane of a label to its message, over the connectors that are active there. -/
def messageRun (p : Placement) (lane : Nat) (active : Lanes) : List Stroke :=
  if pen.settings.arrows then
    pen.runStrokes p (2 * lane + 1) (s.lanes.marginSize - 1) (laneCells active) []
  else []

/-- Paints the margin beside the first row of a message. -/
def paintMessage (line : Nat) (p : Placement) (pending : List Nat) :
    Except DrawFault (List Cell) := do
  let active ← s.withLanes (s.activeBelow line pending)
  let lane ← s.lanes.laneOf p
  paint s.lanes.marginSize
    (laneStrokes (pen.draw · pen.glyphs.vertical) active
      ++ ⟨2 * lane, pen.draw p pen.glyphs.bottomCorner⟩ :: messageRun pen s p lane active)

variable {s}

namespace IsLaidOut

variable (h : s.IsLaidOut) {p q : Placement} {k line : Nat}

include h

/-! ## Lanes -/

/-- **Every label of several lines** finds its lane. -/
theorem laneOf_eq (hp : (p, k) ∈ s.lanes) : s.lanes.laneOf p = .ok k := by
  unfold Lanes.laneOf
  cases hfind : s.lanes.find? fun e => e.1.index = p.index with
  | none =>
    have hnone := List.find?_eq_none.1 hfind (p, k) hp
    simp at hnone
  | some e =>
    have hindex : e.1.index = p.index := by simpa using List.find?_some hfind
    have hmem := List.mem_of_find?_eq_some hfind
    have hsame : e.1 = p :=
      h.eq_of_index_eq (h.mem_of_mem_lanes hmem).1 (h.mem_of_mem_lanes hp).1 hindex
    exact congrArg Except.ok (h.lane_unique (hsame ▸ hmem) hp)

theorem exists_lane (hp : p ∈ s.multiline) : ∃ k, (p, k) ∈ s.lanes := by
  obtain ⟨hmem, hmulti⟩ := List.mem_filter.1 hp
  rw [h.lanes]
  exact Lanes.exists_mem_assign hmem hmulti

/-- **Labels of several lines** are found with their lanes. -/
theorem withLanes_eq (ps : List Placement) (hps : ∀ p ∈ ps, p ∈ s.multiline) :
    ∃ laned, s.withLanes ps = .ok laned ∧ laned.map (·.1) = ps ∧
      ∀ e, e ∈ laned ↔ e.1 ∈ ps ∧ e ∈ s.lanes := by
  induction ps with
  | nil => exact ⟨[], rfl, rfl, fun e => by simp⟩
  | cons p ps ih =>
    obtain ⟨laned, hlaned, hfst, hmem⟩ := ih fun q hq => hps q (List.mem_cons_of_mem p hq)
    obtain ⟨k, hk⟩ := h.exists_lane (hps p List.mem_cons_self)
    refine ⟨(p, k) :: laned, ?_, by rw [List.map_cons, hfst], fun e => ?_⟩
    · unfold withLanes at hlaned ⊢
      rw [List.mapM_cons, hlaned, h.laneOf_eq hk]
      rfl
    · rw [List.mem_cons, hmem, List.mem_cons]
      constructor
      · rintro (rfl | ⟨he, hlane⟩)
        · exact ⟨Or.inl rfl, hk⟩
        · exact ⟨Or.inr he, hlane⟩
      · rintro ⟨rfl | he, hlane⟩
        · exact Or.inl (Prod.ext rfl (h.lane_unique hlane hk))
        · exact Or.inr ⟨he, hlane⟩

theorem mem_multiline (hp : (p, k) ∈ s.lanes) : p ∈ s.multiline :=
  List.mem_filter.2 (h.mem_of_mem_lanes hp)

/-! ## Cells of lanes -/

section Cells

variable {holds : Placement → Bool} {laned : Lanes}
  (hholds : ∀ p k, (p, k) ∈ s.lanes → holds p = true → p.touches line = true)
  (hlaned : ∀ e, e ∈ laned ↔ e ∈ s.lanes ∧ holds e.1 = true)

include hholds

/-- The label that takes a cell. -/
theorem at?_eq (hp : (p, k) ∈ s.lanes) (hp' : holds p = true) :
    s.lanes.at? holds (2 * k) = some p := by
  cases hat : s.lanes.at? holds (2 * k) with
  | none => exact absurd hp' (Lanes.not_of_at?_eq_none hat hp)
  | some q =>
    obtain ⟨j, hq, hj, hq'⟩ := Lanes.at?_eq_some hat
    obtain rfl : j = k := by omega
    exact congrArg some (h.eq_of_touches hq hp (hholds q j hq hq') (hholds p j hp hp'))

include hlaned

/-- **A cell shows the label** that takes it. -/
theorem lastOn?_laneStrokes (drawn : Placement → Cell) (cell : Nat) :
    lastOn? (laneStrokes drawn laned) cell = (s.lanes.at? holds cell).map drawn := by
  unfold laneStrokes
  cases hat : s.lanes.at? holds cell with
  | none =>
    refine lastOn?_eq_none fun t ht => ?_
    obtain ⟨e, he, rfl⟩ := List.mem_map.1 ht
    obtain ⟨hlane, he'⟩ := (hlaned e).1 he
    rintro rfl
    exact Lanes.not_of_at?_eq_none hat hlane he'
  | some p =>
    obtain ⟨k, hp, rfl, hp'⟩ := Lanes.at?_eq_some hat
    refine lastOn?_eq_some ⟨_, List.mem_map_of_mem ((hlaned (p, k)).2 ⟨hp, hp'⟩), rfl⟩ ?_
    intro t ht hcell
    obtain ⟨⟨q, j⟩, he, rfl⟩ := List.mem_map.1 ht
    obtain ⟨hlane, hq'⟩ := (hlaned _).1 he
    have hjk : j = k := by
      dsimp only at hcell
      omega
    have hsame := h.at?_eq hholds hlane hq'
    rw [hjk, hat] at hsame
    rw [Option.some.inj hsame]

/-- A cell is one of those of the lanes if a label takes it. -/
theorem contains_laneCells (cell : Nat) :
    (laneCells laned).contains cell = (s.lanes.at? holds cell).isSome := by
  have hiff : cell ∈ laneCells laned ↔ (s.lanes.at? holds cell).isSome = true := by
    unfold laneCells
    rw [List.mem_map]
    constructor
    · rintro ⟨⟨p, k⟩, he, rfl⟩
      obtain ⟨hlane, hp'⟩ := (hlaned _).1 he
      rw [h.at?_eq hholds hlane hp', Option.isSome_some]
    · intro hsome
      obtain ⟨p, hp⟩ := Option.isSome_iff_exists.1 hsome
      obtain ⟨k, hlane, hk, hp'⟩ := Lanes.at?_eq_some hp
      exact ⟨(p, k), (hlaned _).2 ⟨hlane, hp'⟩, hk⟩
  rw [List.contains_eq_mem, Bool.eq_iff_iff, decide_eq_true_eq, hiff]

end Cells

omit h in
/-- A lane cell lies in the margin. -/
theorem cell_lt_of_mem_laneStrokes {drawn : Placement → Cell} {laned : Lanes}
    (hlaned : ∀ e ∈ laned, e ∈ s.lanes) {t : Stroke} (ht : t ∈ laneStrokes drawn laned) :
    t.cell < s.lanes.marginSize := by
  obtain ⟨⟨p, k⟩, he, rfl⟩ := List.mem_map.1 ht
  have hlt := lt_marginSize (Lanes.lt_count (hlaned _ he))
  dsimp only
  omega

/-! ## Margins beside other rows -/

section Pending

variable {pending : List Placement} {indices : List Nat}
  (hpending : ∀ p ∈ s.labels, p.index ∈ indices ↔ p ∈ pending)

include hpending

/-- The labels that are active below a line, with their lanes. -/
theorem exists_active (line : Nat) :
    ∃ active, s.withLanes (s.activeBelow line indices) = .ok active ∧
      ∀ e, e ∈ active ↔ e ∈ s.lanes ∧ e.1.isOpenBelow line pending = true := by
  obtain ⟨active, hactive, -, hmem⟩ :=
    h.withLanes_eq (s.activeBelow line indices) fun p hp => (List.mem_filter.1 hp).1
  refine ⟨active, hactive, fun e => ?_⟩
  rw [hmem, activeBelow, List.mem_filter, Placement.isOpenBelow, decide_eq_true_eq,
    decide_eq_true_eq]
  constructor
  · rintro ⟨⟨hmulti, hopen⟩, hlane⟩
    rw [hpending e.1 (h.mem_of_mem_lanes hlane).1] at hopen
    exact ⟨hlane, hopen⟩
  · rintro ⟨hlane, hopen⟩
    rw [← hpending e.1 (h.mem_of_mem_lanes hlane).1] at hopen
    exact ⟨⟨h.mem_multiline hlane, hopen⟩, hlane⟩

/-- **The margin beside rows below a line** is painted without fault. -/
theorem paintBetween_eq (glyph : CodePoint) (line : Nat) :
    paintBetween pen s glyph line indices = .ok (betweenMargin pen s glyph line pending) := by
  unfold paintBetween betweenMargin
  by_cases hsize : s.lanes.marginSize = 0
  · rw [if_pos hsize, hsize]
    rfl
  · rw [if_neg hsize]
    obtain ⟨active, hactive, hmem⟩ := h.exists_active hpending line
    rw [hactive]
    have hlane := fun e he => ((hmem e).1 he).1
    refine (paint_eq fun t ht => cell_lt_of_mem_laneStrokes hlane ht).trans
      (congrArg Except.ok (List.map_congr_left fun cell _ => ?_))
    rw [h.lastOn?_laneStrokes (fun _ _ hp => h.touches_of_isOpenBelow hp) hmem]
    cases s.lanes.at? (·.isOpenBelow line pending) cell with
    | none => rfl
    | some p => rfl

omit h hpending in
theorem cell_lt_of_mem_messageRun {active : Lanes} {t : Stroke}
    (ht : t ∈ messageRun pen s p k active) : t.cell + 1 < s.lanes.marginSize := by
  unfold messageRun at ht
  split at ht
  · have hrange := (Pen.mem_runStrokes.1 ht).1
    omega
  · cases ht

omit hpending in
/-- **The strokes beside a message** leave on each cell what it shows when it is asked. -/
theorem lastOn?_messageStrokes {active : Lanes}
    (hactive : ∀ e, e ∈ active ↔ e ∈ s.lanes ∧ e.1.isOpenBelow line pending = true) (cell : Nat) :
    (lastOn? (laneStrokes (pen.draw · pen.glyphs.vertical) active
      ++ ⟨2 * k, pen.draw p pen.glyphs.bottomCorner⟩ :: messageRun pen s p k active) cell).getD
        .blank = messageMarginCell pen s line p k pending cell := by
  have htouches : ∀ p k, (p, k) ∈ s.lanes → p.isOpenBelow line pending = true →
      p.touches line = true := fun _ _ hp => h.touches_of_isOpenBelow hp
  have hrun : lastOn? (messageRun pen s p k active) cell =
      if pen.settings.arrows ∧ 2 * k < cell ∧ cell + 1 < s.lanes.marginSize then
        some (pen.drawRun p (s.lanes.at? (·.isOpenBelow line pending) cell).isSome)
      else none := by
    unfold messageRun
    cases pen.settings.arrows with
    | false => simp [lastOn?]
    | true =>
      rw [if_pos rfl, pen.lastOn?_runStrokes, h.contains_laneCells htouches hactive]
      congr 1
      simp only [List.not_mem_nil, not_false_eq_true, and_true, true_and, eq_iff_iff]
      omega
  rw [lastOn?_append, lastOn?, hrun, h.lastOn?_laneStrokes htouches hactive]
  unfold messageMarginCell
  dsimp only
  by_cases hown : cell = 2 * k
  · -- The run starts behind the lane of the label.
    have hno : ¬ (pen.settings.arrows = true ∧ 2 * k < cell ∧ cell + 1 < s.lanes.marginSize) := by
      omega
    rw [if_neg hno, if_pos hown.symm, if_pos hown]
    rfl
  · rw [if_neg (Ne.symm hown), if_neg hown, Option.or_none]
    by_cases hover : pen.settings.arrows = true ∧ 2 * k < cell ∧ cell + 1 < s.lanes.marginSize
    · rw [if_pos hover, if_pos hover]
      rfl
    · rw [if_neg hover, if_neg hover, Option.none_or]
      cases s.lanes.at? (·.isOpenBelow line pending) cell with
      | none => rfl
      | some q => rfl

/-- **The margin beside the first row of a message** is painted without fault. -/
theorem paintMessage_eq (line : Nat) (hp : (p, k) ∈ s.lanes) :
    paintMessage pen s line p indices = .ok (messageMargin pen s line p k pending) := by
  unfold paintMessage messageMargin
  obtain ⟨active, heq, hactive⟩ := h.exists_active hpending line
  have hlt := lt_marginSize (Lanes.lt_count hp)
  have hcells : ∀ t ∈ laneStrokes (pen.draw · pen.glyphs.vertical) active ++
      ⟨2 * k, pen.draw p pen.glyphs.bottomCorner⟩ :: messageRun pen s p k active,
      t.cell < s.lanes.marginSize := by
    intro t ht
    rcases List.mem_append.1 ht with ht | ht
    · exact cell_lt_of_mem_laneStrokes (fun e he => ((hactive e).1 he).1) ht
    rcases List.mem_cons.1 ht with rfl | ht
    · dsimp only
      omega
    · exact Nat.lt_of_succ_lt (cell_lt_of_mem_messageRun pen ht)
  rw [heq, h.laneOf_eq hp]
  exact (paint_eq hcells).trans (congrArg Except.ok (List.map_congr_left fun cell _ =>
    h.lastOn?_messageStrokes pen hactive cell))

end Pending

/-! ## Margins beside source lines -/

section Arms

variable {vertical keep : List Nat} {cell : Nat}

omit h in
/-- What the run of a label leaves on a cell that is not kept. -/
theorem lastOn?_arm {e : Placement × Nat} (he : 2 * e.2 + 3 < s.lanes.marginSize)
    (hkeep : cell ∉ keep) :
    lastOn? (arm pen s vertical keep e) cell =
      if 2 * e.2 < cell ∧ cell + 1 < s.lanes.marginSize then
        some (if cell + 2 = s.lanes.marginSize then pen.draw e.1 pen.glyphs.arrow
          else pen.drawRun e.1 (vertical.contains cell))
      else none := by
  unfold arm
  dsimp only
  rw [lastOn?_append, lastOn?_singleton, pen.lastOn?_runStrokes]
  dsimp only
  by_cases harrow : cell + 2 = s.lanes.marginSize
  · rw [if_pos (show s.lanes.marginSize - 2 = cell by omega), Option.some_or, if_pos (by omega),
      if_pos harrow]
  · rw [if_neg (show ¬ s.lanes.marginSize - 2 = cell by omega), Option.none_or, if_neg harrow]
    congr 1
    simp only [hkeep, not_false_eq_true, and_true, eq_iff_iff]
    omega

omit h in
/-- A run lies between its lane and the last cell of the margin. -/
theorem cell_of_mem_arm {e : Placement × Nat} (he : 2 * e.2 + 3 < s.lanes.marginSize) {t : Stroke}
    (ht : t ∈ arm pen s vertical keep e) :
    2 * e.2 < t.cell ∧ t.cell + 1 < s.lanes.marginSize ∧
      (t.cell + 2 = s.lanes.marginSize ∨ t.cell ∉ keep) := by
  rcases List.mem_append.1 ht with ht | ht
  · obtain ⟨hrange, hkeep, -⟩ := Pen.mem_runStrokes.1 ht
    exact ⟨by omega, by omega, Or.inr hkeep⟩
  · rw [List.mem_singleton.1 ht]
    dsimp only
    omega

variable {ends : Lanes} (hends : ∀ e, e ∈ ends ↔ e ∈ s.lanes ∧ e.1.endsAt line = true)

include hends

/-- The last label that ends on a line, in the order of the lanes, leads before a cell. -/
theorem getLast?_ends (cell : Nat) :
    ((ends.mergeSort fun a b => a.2 ≤ b.2).filter fun e => 2 * e.2 < cell).getLast?.map (·.1) =
      s.lanes.lastBefore? (·.endsAt line) cell := by
  have hmem : ∀ e, e ∈ (ends.mergeSort fun a b => a.2 ≤ b.2).filter (fun e => 2 * e.2 < cell) ↔
      e ∈ s.lanes ∧ Lanes.Qualifies (·.endsAt line) cell e := by
    intro e
    rw [List.mem_filter, List.mem_mergeSort, hends, decide_eq_true_eq]
    exact ⟨fun ⟨⟨hlane, hend⟩, hlt⟩ => ⟨hlane, hlt, hend⟩,
      fun ⟨hlane, hlt, hend⟩ => ⟨⟨hlane, hend⟩, hlt⟩⟩
  have hsorted := (ends.pairwise_sorted (· ≤ ·)).filter fun e => 2 * e.2 < cell
  obtain ⟨best, hbest, hleads⟩ := s.lanes.leads_lastBefore? (·.endsAt line) cell
  rw [hbest]
  cases hlast : ((ends.mergeSort fun a b => a.2 ≤ b.2).filter fun e => 2 * e.2 < cell).getLast? with
  | none =>
    cases best with
    | none => rfl
    | some b =>
      have hb := (hmem b).2 ⟨hleads.1, hleads.2.1⟩
      rw [List.getLast?_eq_none_iff.1 hlast] at hb
      cases hb
  | some last =>
    obtain ⟨hlane, hqualifies⟩ := (hmem last).1 (List.mem_of_getLast? hlast)
    cases best with
    | none => exact absurd hqualifies (hleads last hlane)
    | some b =>
      have hle := hleads.2.2 last hlane hqualifies
      have hge := le_getLast_of_pairwise hsorted hlast ((hmem b).2 ⟨hleads.1, hleads.2.1⟩)
      have hsame : last.2 = b.2 := Nat.le_antisymm hle hge
      have hlane' : (last.1, b.2) ∈ s.lanes := hsame ▸ hlane
      exact congrArg some (h.eq_of_touches hlane' hleads.1
        (h.touches_of_endsAt hlane hqualifies.2) (h.touches_of_endsAt hleads.1 hleads.2.1.2))

omit h in
/-- The runs of a line lie in the margin, and on no cell that is kept. -/
theorem cell_of_mem_arms {t : Stroke} (ht : t ∈ arms pen s vertical keep ends) :
    t.cell + 1 < s.lanes.marginSize ∧ (t.cell + 2 = s.lanes.marginSize ∨ t.cell ∉ keep) := by
  obtain ⟨e, he, ht⟩ := List.mem_flatMap.1 ht
  have hlane := ((hends e).1 (List.mem_mergeSort.1 he)).1
  exact (cell_of_mem_arm pen (lt_marginSize (Lanes.lt_count hlane)) ht).2

/-- **A cell shows the run** that comes last over it. -/
theorem lastOn?_arms (hcell : cell ∉ keep) :
    lastOn? (arms pen s vertical keep ends) cell =
      if cell + 1 < s.lanes.marginSize then
        (s.lanes.lastBefore? (·.endsAt line) cell).map fun p =>
          if cell + 2 = s.lanes.marginSize then pen.draw p pen.glyphs.arrow
          else pen.drawRun p (vertical.contains cell)
      else none := by
  unfold arms
  split
  · next hsize =>
    rw [← h.getLast?_ends hends cell, Option.map_map]
    refine lastOn?_flatMap fun e he => ?_
    have hlane := ((hends e).1 (List.mem_mergeSort.1 he)).1
    rw [lastOn?_arm pen (lt_marginSize (Lanes.lt_count hlane)) hcell]
    simp only [hsize, and_true, decide_eq_true_eq, Function.comp_apply]
  · next hsize =>
    refine lastOn?_eq_none fun t ht => ?_
    rintro rfl
    exact hsize (cell_of_mem_arms pen hends ht).1

end Arms

/-- On a cell of no label that ends on a line, a label that touches it passes it. -/
theorem map_at?_touches {cell : Nat} (hends : s.lanes.at? (·.endsAt line) cell = none) :
    (s.lanes.at? (·.touches line) cell).map (sourceDrawn pen line) =
      (s.lanes.at? (·.passes line) cell).map (pen.draw · pen.glyphs.vertical) := by
  cases htouches : s.lanes.at? (·.touches line) cell with
  | none =>
    cases hpasses : s.lanes.at? (·.passes line) cell with
    | none => rfl
    | some q =>
      obtain ⟨k, hq, rfl, hpass⟩ := Lanes.at?_eq_some hpasses
      exact absurd (Placement.touches_of_passes hpass) (Lanes.not_of_at?_eq_none htouches hq)
  | some p =>
    obtain ⟨k, hp, rfl, hline⟩ := Lanes.at?_eq_some htouches
    have hpassing : ∀ p k, (p, k) ∈ s.lanes → p.passes line = true →
        p.touches line = true := fun _ _ _ => Placement.touches_of_passes
    have hend := Lanes.not_of_at?_eq_none hends hp
    have hpass := (Placement.endsAt_or_passes_of_touches hline).resolve_left hend
    rw [h.at?_eq hpassing hp hpass]
    exact congrArg some (if_neg hend)

section Touching

variable {touching : Lanes} {cell : Nat}
  (htouching : ∀ e, e ∈ touching ↔ e ∈ s.lanes ∧ e.1.touches line = true)

include htouching

theorem mem_ends (e : Placement × Nat) :
    e ∈ touching.filter (·.1.endsAt line) ↔ e ∈ s.lanes ∧ e.1.endsAt line = true := by
  rw [List.mem_filter, htouching]
  exact ⟨fun ⟨⟨hlane, _⟩, hend⟩ => ⟨hlane, hend⟩,
    fun ⟨hlane, hend⟩ => ⟨⟨hlane, h.touches_of_endsAt hlane hend⟩, hend⟩⟩

omit h in
theorem mem_passing (e : Placement × Nat) :
    e ∈ touching.filter (fun e => !e.1.endsAt line) ↔ e ∈ s.lanes ∧ e.1.passes line = true := by
  rw [List.mem_filter, htouching, Bool.not_eq_true', ← Bool.not_eq_true]
  constructor
  · rintro ⟨⟨hlane, hline⟩, hend⟩
    exact ⟨hlane, (Placement.endsAt_or_passes_of_touches hline).resolve_left hend⟩
  · rintro ⟨hlane, hpass⟩
    refine ⟨⟨hlane, Placement.touches_of_passes hpass⟩, fun hend => ?_⟩
    simp only [Placement.passes, Placement.endsAt, decide_eq_true_eq] at hpass hend
    omega

theorem cell_of_mem_sourceRuns {t : Stroke} (ht : t ∈ sourceRuns pen s line touching) :
    t.cell + 1 < s.lanes.marginSize ∧
      (t.cell + 2 = s.lanes.marginSize ∨ t.cell ∉ laneCells (touching.filter (·.1.endsAt line))) := by
  unfold sourceRuns at ht
  split at ht
  · exact cell_of_mem_arms pen (h.mem_ends htouching) ht
  · cases ht

/-- The cell of a label that ends on the line is kept, so that no run goes over it. -/
theorem lastOn?_sourceRuns_of_ends (hp : (p, k) ∈ s.lanes) (hend : p.endsAt line = true) :
    lastOn? (sourceRuns pen s line touching) (2 * k) = none := by
  have hlt := lt_marginSize (Lanes.lt_count hp)
  have hkeep : 2 * k ∈ laneCells (touching.filter (·.1.endsAt line)) :=
    List.mem_map.2 ⟨(p, k), (h.mem_ends htouching (p, k)).2 ⟨hp, hend⟩, rfl⟩
  refine lastOn?_eq_none fun t ht hcell => ?_
  rcases (h.cell_of_mem_sourceRuns pen htouching ht).2 with harrow | hfree
  · omega
  · exact hfree (hcell ▸ hkeep)

/-- Any other cell shows the run that comes last over it. -/
theorem lastOn?_sourceRuns (hat : s.lanes.at? (·.endsAt line) cell = none) :
    lastOn? (sourceRuns pen s line touching) cell =
      (if pen.settings.arrows ∧ cell + 1 < s.lanes.marginSize then
        s.lanes.lastBefore? (·.endsAt line) cell else none).map fun p =>
          if cell + 2 = s.lanes.marginSize then pen.draw p pen.glyphs.arrow
          else pen.drawRun p (s.lanes.at? (·.passes line) cell).isSome := by
  have hends := h.mem_ends htouching
  have hpassing : ∀ p k, (p, k) ∈ s.lanes → p.passes line = true → p.touches line = true :=
    fun _ _ _ => Placement.touches_of_passes
  have hkeep : cell ∉ laneCells (touching.filter (·.1.endsAt line)) := by
    intro hcell
    obtain ⟨⟨p, k⟩, he, rfl⟩ := List.mem_map.1 hcell
    obtain ⟨hlane, hend⟩ := (hends _).1 he
    exact Lanes.not_of_at?_eq_none hat hlane hend
  unfold sourceRuns
  cases pen.settings.arrows with
  | false => simp [lastOn?]
  | true =>
    rw [if_pos rfl, h.lastOn?_arms pen hends hkeep,
      h.contains_laneCells hpassing (mem_passing htouching)]
    by_cases hlast : cell + 1 < s.lanes.marginSize
    · rw [if_pos hlast, if_pos ⟨rfl, hlast⟩]
    · rw [if_neg hlast, if_neg (fun h => hlast h.2), Option.map_none]

/-- **The strokes beside a source line** leave on each cell what it shows when it is asked. -/
theorem lastOn?_sourceStrokes (cell : Nat) :
    (lastOn? (laneStrokes (sourceDrawn pen line) touching ++ sourceRuns pen s line touching)
      cell).getD .blank = sourceMarginCell pen s line cell := by
  have hline : ∀ p k, (p, k) ∈ s.lanes → p.touches line = true → p.touches line = true :=
    fun _ _ _ hp => hp
  rw [lastOn?_append, h.lastOn?_laneStrokes hline htouching]
  unfold sourceMarginCell
  dsimp only
  cases hat : s.lanes.at? (·.endsAt line) cell with
  | some p =>
    obtain ⟨k, hp, rfl, hend⟩ := Lanes.at?_eq_some hat
    rw [h.lastOn?_sourceRuns_of_ends pen htouching hp hend, Option.none_or,
      h.at?_eq hline hp (h.touches_of_endsAt hp hend)]
    exact if_pos hend
  | none =>
    rw [h.lastOn?_sourceRuns pen htouching hat, h.map_at?_touches pen hat]
    cases if pen.settings.arrows ∧ cell + 1 < s.lanes.marginSize then
      s.lanes.lastBefore? (·.endsAt line) cell else none with
    | some p => rfl
    | none =>
      cases s.lanes.at? (·.passes line) cell with
      | none => rfl
      | some q => rfl

end Touching

/-- **The margin beside a source line** is painted without fault. -/
theorem paintSource_eq (line : Nat) :
    paintSource pen s line = .ok (sourceMargin pen s line) := by
  unfold paintSource sourceMargin
  by_cases hsize : s.lanes.marginSize = 0
  · rw [if_pos hsize, hsize]
    rfl
  rw [if_neg hsize]
  obtain ⟨touching, heq, -, hmem⟩ :=
    h.withLanes_eq (s.multiline.filter (·.touches line)) fun p hp => (List.mem_filter.1 hp).1
  have htouching : ∀ e, e ∈ touching ↔ e ∈ s.lanes ∧ e.1.touches line = true := by
    intro e
    rw [hmem, List.mem_filter]
    exact ⟨fun ⟨⟨_, hline⟩, hlane⟩ => ⟨hlane, hline⟩,
      fun ⟨hlane, hline⟩ => ⟨⟨h.mem_multiline hlane, hline⟩, hlane⟩⟩
  have hcells : ∀ t ∈ laneStrokes (sourceDrawn pen line) touching ++
      sourceRuns pen s line touching, t.cell < s.lanes.marginSize := by
    intro t ht
    rcases List.mem_append.1 ht with ht | ht
    · exact cell_lt_of_mem_laneStrokes (fun e he => ((hmem e).1 he).2) ht
    · exact Nat.lt_of_succ_lt (h.cell_of_mem_sourceRuns pen htouching ht).1
  rw [heq]
  exact (paint_eq hcells).trans (congrArg Except.ok (List.map_congr_left fun cell _ =>
    h.lastOn?_sourceStrokes pen htouching cell))

end IsLaidOut

end Snippet

end SourceReport
