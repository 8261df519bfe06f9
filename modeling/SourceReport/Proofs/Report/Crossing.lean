import SourceReport.Proofs.Report.Difference
import SourceReport.Proofs.Report.Hanging
import SourceReport.Proofs.Report.Labels
import SourceReport.Proofs.Report.Recolor

/-!
# Gaps and crossings

A horizontal run that passes over the vertical connector of another label leaves a gap in it, or
crosses it, as the settings say. Three kinds of runs pass over connectors: the arrow of a label that
turns off beside a source line, the run to the message of a label of several lines, and the run to
the message of a label of one line.

* `Snippet.ArrowCrosses`, `Snippet.EndingCrosses` and `Placement.MarkCrosses` say for each of them
  over which cells it passes; `Snippet.Crosses` gives the columns of these.
* `Row.CrossesAs` relates the two forms of a row.

Results:
* `Row.crossesAs_of_differsAt`: two forms of a row, from its margin and its cells.
* `Snippet.IsLaidOut.differsAt_sourceMargin` and `differsAt_messageMargin`,
  `Marks.differsAt_connectors`: the cells in which the two forms differ.
* `Snippet.IsLaidOut.crosses_ending_iff`, `crosses_mark_iff`: where the first row of a message
  crosses.
-/

namespace SourceReport

/-! ## The setting -/

/-- The settings with gaps where runs pass over connectors, or with crossings. -/
def Settings.withCrossGap (s : Settings) (gap : Bool) : Settings := { s with crossGap := gap }

/-- The pen with such settings. -/
def Pen.withCrossGap (pen : Pen) (gap : Bool) : Pen :=
  { pen with settings := pen.settings.withCrossGap gap }

@[simp] theorem Pen.arrows_withCrossGap (pen : Pen) (gap : Bool) :
    (pen.withCrossGap gap).settings.arrows = pen.settings.arrows := rfl

/-! ## Where runs cross -/

namespace Snippet

/-- A label turns off at a source line, and its run passes over the connector of a later lane. -/
def ArrowCrosses (s : Snippet) (line cell : Nat) : Prop :=
  ∃ p j q k, (p, j) ∈ s.lanes ∧ (q, k) ∈ s.lanes ∧ j < k ∧ p.endsAt line = true ∧
    q.passes line = true ∧ cell = 2 * k

/-- The run to the message of a label of several lines passes over the connector of a later lane. -/
def EndingCrosses (s : Snippet) (p : Placement) (cell : Nat) : Prop :=
  ∃ j q k, (p, j) ∈ s.lanes ∧ (q, k) ∈ s.lanes ∧ j < k ∧ q.firstLine ≤ p.lastLine ∧
    p.lastLine < q.lastLine ∧ cell = 2 * k

end Snippet

/-- The run to the message of a label of one line passes over the connector of a later message. -/
def Placement.MarkCrosses (settings : Settings) (raw : Text) (labels : List Placement)
    (p : Placement) (cell : Nat) : Prop :=
  ∃ q ∈ labels, q.hasMessage = true ∧ p.SpeaksBefore q ∧
    (p.underlined settings raw).attach < (q.underlined settings raw).attach ∧
    cell = (q.underlined settings raw).attach

/-- A run passes over a connector in a column of a row for a source. -/
inductive Snippet.Crosses (pen : Pen) (s : Snippet) : RowKind → Nat → Prop
  | arrow {line cell : Nat} (harrows : pen.settings.arrows = true) (h : s.ArrowCrosses line cell) :
    Crosses pen s (.source line) (pen.digits + 3 + cell)
  | ending {p : Placement} {cell : Nat} (harrows : pen.settings.arrows = true)
    (h : s.EndingCrosses p cell) : Crosses pen s (.message p.index 0) (pen.digits + 3 + cell)
  | mark {source : Source} {line : Nat} {l : Line} {p : Placement} {cell : Nat}
    (hsource : s.source = some source) (hline : source.lines[line]? = some l)
    (hp : p ∈ s.labelsOn line) (h : p.MarkCrosses pen.settings l.raw (s.labelsOn line) cell) :
    Crosses pen s (.message p.index 0) (pen.leadWidth s.lanes + cell)

/-! ## Two forms of a cell and of a row -/

/-- A cell of a run that leaves a gap in a connector, and the cell of the run that crosses it. -/
structure Cell.CrossesAs (glyphs : Glyphs) (c c' : Cell) : Prop where
  style : c.style = c'.style
  gap : c.glyph = glyphs.horizontal
  crossing : c'.glyph = glyphs.crossing

/-- A row with gaps and the same row with crossings. -/
structure Row.CrossesAs (glyphs : Glyphs) (crosses : RowKind → Nat → Prop) (r r' : Row) :
    Prop where
  kind : r.kind = r'.kind
  /-- What is written has the same runs of styles, each of the same length. -/
  shape : r.shape = r'.shape
  gap : ∀ n, crosses r.kind n → r.written[n]? = some glyphs.horizontal
  crossing : ∀ n, crosses r.kind n → r'.written[n]? = some glyphs.crossing
  /-- They differ where runs cross, and nowhere else. -/
  differs : ∀ n, r.written[n]? ≠ r'.written[n]? ↔ crosses r.kind n

namespace Row.CrossesAs

theorem refl (glyphs : Glyphs) {crosses : RowKind → Nat → Prop} {r : Row}
    (h : ∀ n, ¬ crosses r.kind n) : r.CrossesAs glyphs crosses r where
  kind := rfl
  shape := rfl
  gap := fun n hn => absurd hn (h n)
  crossing := fun n hn => absurd hn (h n)
  differs := fun n => ⟨fun hne => absurd rfl hne, fun hn => absurd hn (h n)⟩

theorem refl_list (glyphs : Glyphs) {crosses : RowKind → Nat → Prop} {rows : List Row}
    (h : ∀ r ∈ rows, ∀ n, ¬ crosses r.kind n) :
    List.Forall₂ (CrossesAs glyphs crosses) rows rows :=
  List.forall₂_same.2 fun r hr => refl glyphs (h r hr)

end Row.CrossesAs

theorem CharSet.horizontal_ne_crossing (set : CharSet) :
    set.glyphs.horizontal ≠ set.glyphs.crossing := by
  cases set <;> decide

namespace Pen

variable (pen : Pen)

/-- The two glyphs of a run that passes over a connector. -/
def Gaps (c d : CodePoint) : Prop := c = pen.glyphs.horizontal ∧ d = pen.glyphs.crossing

theorem not_blank_of_gaps {c d : CodePoint} (h : pen.Gaps c d) :
    c.isBlank = false ∧ d.isBlank = false := by
  obtain ⟨rfl, rfl⟩ := h
  exact ⟨(pen.isSingle_of_mem (by simp [Glyphs.inCells])).not_blank,
    (pen.isSingle_of_mem (by simp [Glyphs.inCells])).not_blank⟩

theorem crossesAs_drawRun (p : Placement) :
    Cell.CrossesAs pen.glyphs ((pen.withCrossGap true).drawRun p true)
      ((pen.withCrossGap false).drawRun p true) :=
  ⟨rfl, rfl, rfl⟩

end Pen

/-- **Rows of which the margins and the cells differ** where runs cross are two forms of a row. -/
theorem Row.crossesAs_of_differsAt (pen : Pen) {crosses : RowKind → Nat → Prop} {r r' : Row}
    {start column : Nat} {inMargin inCells : Nat → Prop}
    (hkind : r.kind = r'.kind) (hgutter : r.gutter = r'.gutter) (htext : r.text = r'.text)
    (hstart : (runsText r.gutter).length = start) (hcolumn : start + r.margin.length = column)
    (hmargin : DiffersAt (Cell.CrossesAs pen.glyphs) inMargin r.margin r'.margin)
    (hcells : DiffersAt (Cell.CrossesAs pen.glyphs) inCells r.cells r'.cells)
    (hcrosses : ∀ n, crosses r.kind n ↔ (∃ cell, inMargin cell ∧ n = start + cell) ∨
      ∃ cell, inCells cell ∧ n = column + cell) :
    r.CrossesAs pen.glyphs crosses r' := by
  have hshape : List.Forall₂ Run.Alike r.runs r'.runs := by
    have hrun : ∀ c d : Cell, Cell.CrossesAs pen.glyphs c d → c.run.Alike d.run := fun c d hcd =>
      ⟨hcd.style, .cons (by
        obtain ⟨hc, hd⟩ := pen.not_blank_of_gaps ⟨hcd.gap, hcd.crossing⟩
        rw [hc, hd]) .nil⟩
    rw [runs, runs, hgutter, htext]
    refine List.rel_append (List.rel_append (List.rel_append (Run.Alike.refl_list _) ?_) ?_)
      (Run.Alike.refl_list _)
    · exact (hmargin.map (S := Run.Alike) hrun).forall₂ Run.Alike.refl fun _ _ h => h
    · exact (hcells.map (S := Run.Alike) hrun).forall₂ Run.Alike.refl fun _ _ h => h
  have hwritten : DiffersAt pen.Gaps (crosses r.kind) r.written r'.written := by
    have hglyph : ∀ c d : Cell, Cell.CrossesAs pen.glyphs c d → pen.Gaps c.glyph d.glyph :=
      fun c d hcd => ⟨hcd.gap, hcd.crossing⟩
    have hnone (t : Text) : DiffersAt pen.Gaps (fun _ => False) t t :=
      DiffersAt.refl (fun _ h => h) t
    rw [written_eq, written_eq, lead, lead, ← hgutter, ← htext]
    refine DiffersAt.trimEnd ?_ fun _ _ => pen.not_blank_of_gaps
    refine ((((hnone _).append (hmargin.map hglyph)).append (hcells.map hglyph)).append
      (hnone _)).congr fun n => ?_
    rw [hcrosses, List.length_append, List.length_map, hstart, hcolumn]
    simp
  refine ⟨hkind, Row.shape_eq hshape, fun n hn => ?_, fun n hn => ?_, fun n => ?_⟩
  · obtain ⟨c, d, hc, -, rfl, -⟩ := (hwritten n).1 hn
    exact hc
  · obtain ⟨c, d, -, hd, -, rfl⟩ := (hwritten n).1 hn
    exact hd
  · constructor
    · exact fun hne => Classical.byContradiction fun hn => hne ((hwritten n).2 hn)
    · intro hn heq
      obtain ⟨c, d, hc, hd, rfl, rfl⟩ := (hwritten n).1 hn
      rw [hc, hd, Option.some.injEq] at heq
      exact pen.settings.charSet.horizontal_ne_crossing heq

/-! ## Margins -/

namespace Snippet

variable (pen : Pen) (s : Snippet)

/-- The setting makes a difference beside a source line only where the run of an arrow crosses. -/
theorem sourceMarginCell_withCrossGap {line cell : Nat}
    (hnot : ¬ (pen.settings.arrows = true ∧ s.ArrowCrosses line cell)) :
    sourceMarginCell (pen.withCrossGap true) s line cell =
      sourceMarginCell (pen.withCrossGap false) s line cell := by
  unfold sourceMarginCell
  dsimp only
  rw [Pen.arrows_withCrossGap, Pen.arrows_withCrossGap]
  cases s.lanes.at? (·.endsAt line) cell with
  | some p => rfl
  | none =>
    dsimp only
    split
    · next p hrunner =>
      split
      · rfl
      · cases hpassing : s.lanes.at? (·.passes line) cell with
        | none => rfl
        | some q =>
          split at hrunner
          · next hon =>
            obtain ⟨k, hq, rfl, hpasses⟩ := Lanes.at?_eq_some hpassing
            obtain ⟨best, hbest, hleads⟩ :=
              Lanes.leads_lastBefore? s.lanes (·.endsAt line) (2 * k)
            rw [hbest] at hrunner
            obtain ⟨e, rfl, -⟩ := Option.map_eq_some_iff.1 hrunner
            obtain ⟨he, ⟨hbefore, hends⟩, -⟩ := hleads
            exact absurd ⟨hon.1, e.1, e.2, q, k, he, hq, by omega, hends, hpasses, rfl⟩ hnot
          · cases hrunner
    · rfl

namespace IsLaidOut

variable {s} (h : s.IsLaidOut)

include h

/-- Where runs cross beside a source line, the run of an arrow is drawn. -/
theorem exists_sourceMarginCell_eq {line cell : Nat} (harrows : pen.settings.arrows = true)
    (hcrosses : s.ArrowCrosses line cell) :
    cell < s.lanes.marginSize ∧ ∃ p, ∀ gap,
      sourceMarginCell (pen.withCrossGap gap) s line cell =
        (pen.withCrossGap gap).drawRun p true := by
  obtain ⟨p, j, q, k, hp, hq, hlt, hends, hpasses, rfl⟩ := hcrosses
  have hsize := lt_marginSize (Lanes.lt_count hq)
  have hnoEnds : s.lanes.at? (·.endsAt line) (2 * k) = none := by
    refine Option.eq_none_iff_forall_not_mem.2 fun r hat => ?_
    obtain ⟨i, hr, hi, hrends⟩ := Lanes.at?_eq_some hat
    obtain rfl : i = k := by omega
    -- One label cannot pass a line and end in it.
    obtain rfl := h.eq_of_touches hr hq (h.touches_of_endsAt hr hrends)
      (Placement.touches_of_passes hpasses)
    simp only [Placement.endsAt, Placement.passes, decide_eq_true_eq] at hrends hpasses
    omega
  have hpassing : (s.lanes.at? (·.passes line) (2 * k)).isSome = true := by
    rw [Option.isSome_iff_ne_none]
    exact fun hnone => Lanes.not_of_at?_eq_none hnone hq hpasses
  obtain ⟨best, hbest, hleads⟩ := Lanes.leads_lastBefore? s.lanes (·.endsAt line) (2 * k)
  cases best with
  | none => exact absurd ⟨by dsimp only; omega, hends⟩ (hleads (p, j) hp)
  | some best =>
    refine ⟨by omega, best.1, fun gap => ?_⟩
    unfold sourceMarginCell
    dsimp only
    rw [hnoEnds, Pen.arrows_withCrossGap, if_pos ⟨harrows, by omega⟩, hbest]
    dsimp only [Option.map_some]
    rw [if_neg (by omega), hpassing]

/-- **Beside a source line** the runs of arrows make the difference. -/
theorem differsAt_sourceMargin (line : Nat) :
    DiffersAt (Cell.CrossesAs pen.glyphs)
      (fun cell => pen.settings.arrows = true ∧ s.ArrowCrosses line cell)
      (sourceMargin (pen.withCrossGap true) s line)
      (sourceMargin (pen.withCrossGap false) s line) := by
  refine DiffersAt.map_range ?_ fun cell _ hnot => sourceMarginCell_withCrossGap pen s hnot
  rintro cell ⟨harrows, hcrosses⟩
  obtain ⟨hsize, p, hcell⟩ := h.exists_sourceMarginCell_eq pen harrows hcrosses
  rw [hcell, hcell]
  exact ⟨hsize, pen.crossesAs_drawRun p⟩

variable {line lane : Nat} {p : Placement} {pending : List Placement}

/-- **Beside the first row of a message** of a label of several lines its run makes the difference.
The labels whose messages are still to come have lanes before that of this one. -/
theorem differsAt_messageMargin (hp : (p, lane) ∈ s.lanes) (hlast : p.lastLine = line)
    (hpending : ∀ q ∈ pending, ∃ k, (q, k) ∈ s.lanes ∧ k < lane) :
    DiffersAt (Cell.CrossesAs pen.glyphs)
      (fun cell => pen.settings.arrows = true ∧ s.EndingCrosses p cell)
      (messageMargin (pen.withCrossGap true) s line p lane pending)
      (messageMargin (pen.withCrossGap false) s line p lane pending) := by
  refine DiffersAt.map_range ?_ fun cell _ hnot => ?_
  · rintro cell ⟨harrows, j, q, k, hj, hq, hlt, hfirst, hbelow, rfl⟩
    obtain rfl := h.lane_unique hj hp
    have hsize := lt_marginSize (Lanes.lt_count hq)
    have hopen : (s.lanes.at? (·.isOpenBelow line pending) (2 * k)).isSome = true := by
      rw [Option.isSome_iff_ne_none]
      refine fun hnone => Lanes.not_of_at?_eq_none hnone hq ?_
      simp only [Placement.isOpenBelow, decide_eq_true_eq]
      omega
    have hcell (gap : Bool) : messageMarginCell (pen.withCrossGap gap) s line p j pending (2 * k) =
        (pen.withCrossGap gap).drawRun p true := by
      unfold messageMarginCell
      dsimp only
      rw [if_neg (by omega), if_pos ⟨harrows, by omega, by omega⟩, hopen]
    rw [hcell, hcell]
    exact ⟨by omega, pen.crossesAs_drawRun p⟩
  · unfold messageMarginCell
    dsimp only
    rw [Pen.arrows_withCrossGap, Pen.arrows_withCrossGap]
    split
    · rfl
    · split
      · next hrun =>
        cases hopen : s.lanes.at? (·.isOpenBelow line pending) cell with
        | none => rfl
        | some q =>
          obtain ⟨k, hq, rfl, hbelow⟩ := Lanes.at?_eq_some hopen
          simp only [Placement.isOpenBelow, decide_eq_true_eq] at hbelow
          rcases hbelow with hbelow | ⟨-, hmem⟩
          · exact absurd ⟨hrun.1, lane, q, k, hp, hq, by omega, by omega, by omega, rfl⟩ hnot
          · obtain ⟨i, hi, hbefore⟩ := hpending q hmem
            have hsame := h.lane_unique hi hq
            omega
      · rfl

end IsLaidOut

end Snippet

/-! ## Messages of labels of one line -/

namespace Marks

variable (pen : Pen)

/-- **In the first row of a message** of a label of one line its run makes the difference. -/
theorem differsAt_connectors (column : Nat) (later : Marks) (p : Placement) (own : Nat)
    (hcolumn : ∀ m ∈ later, m.2.attach < column) :
    DiffersAt (Cell.CrossesAs pen.glyphs) (fun cell => own < cell ∧ later.Attaches cell)
      (connectors (pen.withCrossGap true) column later p own)
      (connectors (pen.withCrossGap false) column later p own) := by
  refine DiffersAt.map_range ?_ fun cell _ hnot => ?_
  · rintro cell ⟨hafter, hattaches⟩
    have hcell (gap : Bool) : connectorCell (pen.withCrossGap gap) later p own cell =
        (pen.withCrossGap gap).drawRun p true := by
      unfold connectorCell
      dsimp only
      rw [if_neg (by omega), if_pos hafter, isSome_attachedAt?_iff.2 hattaches]
    rw [hcell, hcell]
    obtain ⟨m, hm, rfl⟩ := hattaches
    exact ⟨hcolumn m hm, pen.crossesAs_drawRun p⟩
  · unfold connectorCell
    dsimp only
    split
    · rfl
    · split
      · next hafter =>
        have hnone : (later.attachedAt? cell).isSome = false := by
          rw [Bool.eq_false_iff, ne_eq, isSome_attachedAt?_iff]
          exact fun hattaches => hnot ⟨hafter, hattaches⟩
        rw [hnone]
        rfl
      · rfl

end Marks

/-! ## Where the rows of a snippet cross -/

namespace Snippet

variable (pen : Pen) {s : Snippet} {source : Source} {line lane n : Nat} {p : Placement}

theorem crosses_source_iff : s.Crosses pen (.source line) n ↔
    ∃ cell, (pen.settings.arrows = true ∧ s.ArrowCrosses line cell) ∧
      n = pen.digits + 3 + cell := by
  constructor
  · intro hcrosses
    cases hcrosses with
    | arrow harrows h => exact ⟨_, ⟨harrows, h⟩, rfl⟩
  · rintro ⟨cell, ⟨harrows, h⟩, rfl⟩
    exact .arrow harrows h

/-- Runs cross in source lines and in the first rows of messages. -/
theorem not_crosses {kind : RowKind} (hsource : ∀ line, kind ≠ .source line)
    (hmessage : ∀ index, kind ≠ .message index 0) : ¬ s.Crosses pen kind n := by
  intro hcrosses
  cases hcrosses with
  | arrow => exact hsource _ rfl
  | ending => exact hmessage _ rfl
  | mark => exact hmessage _ rfl

namespace IsLaidOut

variable (h : s.IsLaidOut)

include h

/-- A message of a label of several lines crosses with its margin. -/
theorem crosses_ending_iff (hp : (p, lane) ∈ s.lanes) : s.Crosses pen (.message p.index 0) n ↔
    ∃ cell, (pen.settings.arrows = true ∧ s.EndingCrosses p cell) ∧
      n = pen.digits + 3 + cell := by
  obtain ⟨hmem, hmulti⟩ := h.mem_of_mem_lanes hp
  constructor
  · generalize hkind : RowKind.message p.index 0 = kind
    intro hcrosses
    cases hcrosses with
    | arrow => cases hkind
    | @ending q cell harrows hcell =>
      injection hkind with hindex
      obtain ⟨j, rest⟩ := hcell
      obtain rfl := h.eq_of_index_eq hmem
        (h.mem_of_mem_lanes (rest.choose_spec.choose_spec.1)).1 hindex
      exact ⟨cell, ⟨harrows, j, rest⟩, rfl⟩
    | @mark _ _ _ q _ _ _ hq _ =>
      injection hkind with hindex
      obtain ⟨hqmem, hsingle, -⟩ := mem_lineLabels.1 hq
      rw [← h.eq_of_index_eq hmem hqmem hindex, hmulti] at hsingle
      cases hsingle
  · rintro ⟨cell, ⟨harrows, hcell⟩, rfl⟩
    exact .ending harrows hcell

/-- A message of a label of one line crosses the connectors of the later ones. -/
theorem crosses_mark_iff {l : Line} {earlier later : List Placement}
    (hsource : s.source = some source) (hline : source.lines[line]? = some l)
    (hsplit : Placement.messageOrder (s.labelsOn line) = earlier ++ p :: later) :
    s.Crosses pen (.message p.index 0) n ↔
      ∃ cell, ((p.underlined pen.settings l.raw).attach < cell ∧
        Placement.IsHung pen l.raw later cell) ∧ n = pen.leadWidth s.lanes + cell := by
  have hp : p ∈ s.labelsOn line := by
    refine (Placement.mem_messageOrder.1 ?_).1
    rw [hsplit]
    simp
  obtain ⟨hmem, hsingle, hlast⟩ := mem_lineLabels.1 hp
  have hnodup : ((s.labelsOn line).map (·.index)).Nodup :=
    h.indices.sublist (List.filter_sublist.map _)
  have hordered := Placement.pairwise_messageOrder hnodup
  rw [hsplit] at hordered
  obtain ⟨-, hbelow, habove⟩ := List.pairwise_append.1 hordered
  have hlater : ∀ q, q ∈ later ↔ q ∈ s.labelsOn line ∧ q.hasMessage = true ∧ p.SpeaksBefore q := by
    intro q
    rw [← and_assoc, ← Placement.mem_messageOrder, hsplit]
    constructor
    · intro hq
      exact ⟨by simp [hq], (List.pairwise_cons.1 hbelow).1 q hq⟩
    · rintro ⟨hq, hbefore⟩
      -- The order is strict, so no label stands before and behind another one.
      have hirrefl : ∀ q : Placement, p.SpeaksBefore q → ¬ q.SpeaksBefore p := by
        intro q
        unfold Placement.SpeaksBefore
        omega
      rcases List.mem_append.1 hq with hq | hq
      · exact absurd (habove q hq p List.mem_cons_self) (hirrefl q hbefore)
      · rcases List.mem_cons.1 hq with rfl | hq
        · exact absurd hbefore (hirrefl _ hbefore)
        · exact hq
  constructor
  · generalize hkind : RowKind.message p.index 0 = kind
    intro hcrosses
    cases hcrosses with
    | arrow => cases hkind
    | @ending q cell harrows hcell =>
      injection hkind with hindex
      obtain ⟨j, _, _, hj, -⟩ := hcell
      obtain ⟨hqmem, hmulti⟩ := h.mem_of_mem_lanes hj
      rw [h.eq_of_index_eq hmem hqmem hindex, hmulti] at hsingle
      cases hsingle
    | @mark source' line' l' q cell hsource' hline' hq hcell =>
      injection hkind with hindex
      obtain ⟨hqmem, -, hqlast⟩ := mem_lineLabels.1 hq
      obtain rfl := h.eq_of_index_eq hmem hqmem hindex
      obtain rfl : line = line' := hlast.symm.trans hqlast
      obtain rfl : source = source' := Option.some.inj (hsource.symm.trans hsource')
      obtain rfl : l = l' := Option.some.inj (hline.symm.trans hline')
      obtain ⟨q, hq, hmessage, hbefore, hlt, rfl⟩ := hcell
      exact ⟨_, ⟨hlt, q, (hlater q).2 ⟨hq, hmessage, hbefore⟩, rfl⟩, rfl⟩
  · rintro ⟨cell, ⟨hlt, q, hq, rfl⟩, rfl⟩
    obtain ⟨hqmem, hmessage, hbefore⟩ := (hlater q).1 hq
    exact .mark hsource hline hp ⟨q, hqmem, hmessage, hbefore, hlt, rfl⟩

end IsLaidOut

end Snippet

end SourceReport
