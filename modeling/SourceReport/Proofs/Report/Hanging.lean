import SourceReport.Proofs.Report.Margin
import SourceReport.Proofs.Report.Owners

/-!
# Messages hang from their underlines

The messages of the labels of one line stand in blocks below the row of underlines. The connector of
a message comes down from its underline through the blocks above its own, turns off in the first row
of this block, and runs to the column of the texts. It crosses the connectors of later messages, and
it goes on where one of these hangs at the same cell.

* `Marks.blocks` are the blocks with their labels.
* `Placement.Hangs` is what holds of one message, with the rows above and below its block;
  `Report.MessagesHang` is what holds of all of them.

Results:
* `Marks.exists_of_blocks_eq`: above its block every row shows something where a connector hangs.
* `Marks.attaches_of_mem_blocks`: vertical connectors in blocks are those of labels there.
* `Snippet.messagesHang`: all of this below any labels of one line.
* `Report.messages_hang`: so it is in every rich report.
-/

namespace SourceReport

/-! ## Glyphs -/

/-- A vertical connector, with a run across it or without one. -/
def Glyphs.IsVertical (g : Glyphs) (c : CodePoint) : Prop := c = g.vertical ∨ c = g.crossing

theorem CharSet.not_isVertical_blank (set : CharSet) :
    ¬ set.glyphs.IsVertical Cell.blank.glyph := by
  unfold Glyphs.IsVertical
  cases set <;> decide

theorem CharSet.not_isVertical_horizontal (set : CharSet) :
    ¬ set.glyphs.IsVertical set.glyphs.horizontal := by
  unfold Glyphs.IsVertical
  cases set <;> decide

theorem CharSet.branch_ne_bottomCorner (set : CharSet) :
    set.glyphs.branch ≠ set.glyphs.bottomCorner := by
  cases set <;> decide

/-! ## What hangs -/

/-- A row whose text starts in a column behind its cells, with a blank between them. -/
structure Row.StartsText (start column : Nat) (r : Row) : Prop where
  lead : r.lead.HasWidth start
  cells : r.cells.length = column
  text : ∃ t, runsText r.text = " " ++ t ∧
    r.written = (r.lead ++ r.cells.map (·.glyph) ++ " " ++ t).trimEnd
  front : Text.HasWidth (r.lead ++ r.cells.map (·.glyph) ++ " ") (start + column + 1)

namespace Placement

variable (pen : Pen) (raw : Text)

/-- The connector of one of some labels hangs at a cell. -/
def IsHung (labels : List Placement) (cell : Nat) : Prop :=
  ∃ q ∈ labels, (q.underlined pen.settings raw).attach = cell

/-- The message of a label hangs from its underline: in the rows above its block, in the first row
of the block, and in the rows below that one. The later labels have their blocks there. -/
structure Hangs (column : Nat) (p : Placement) (above : List Row) (first : Row) (below : List Row)
    (later : List Placement) : Prop where
  /-- The connector comes down through all rows above. -/
  comes_down : ∀ r ∈ above, ∃ c, r.cells[(p.underlined pen.settings raw).attach]? = some c ∧
    c.glyph.isBlank = false
  /-- It turns off, and goes on just where a later one hangs at the same cell. -/
  turns_off : ∃ c, first.cells[(p.underlined pen.settings raw).attach]? = some c ∧
    c.style = pen.styleOf p ∧
    (c.glyph = pen.glyphs.branch ↔ IsHung pen raw later (p.underlined pen.settings raw).attach) ∧
    (c.glyph = pen.glyphs.bottomCorner ↔
      ¬ IsHung pen raw later (p.underlined pen.settings raw).attach)
  /-- It runs to the text without a gap, across the later ones. -/
  runs : ∀ cell, (p.underlined pen.settings raw).attach < cell → cell < column →
    ∃ crosses, first.cells[cell]? = some (pen.drawRun p crosses) ∧
      (crosses = true ↔ IsHung pen raw later cell)
  /-- Below that its cell has vertical connectors of later labels only. -/
  leaves : ∀ r ∈ below, ∀ c, r.cells[(p.underlined pen.settings raw).attach]? = some c →
    pen.glyphs.IsVertical c.glyph →
    IsHung pen raw later (p.underlined pen.settings raw).attach

end Placement

/-- The messages of labels of one line hang from the row of their underlines. -/
structure Report.MessagesHang (pen : Pen) (raw : Text) (labels : List Placement) (underline : Row)
    (blocks : List (Placement × List Row)) (start column : Nat) : Prop where
  /-- Every label with a message has one block. -/
  speakers : (blocks.map (·.1)).Perm (labels.filter (·.hasMessage))
  ordered : (blocks.map (·.1)).Pairwise Placement.SpeaksBefore
  shown : ∀ b ∈ blocks, b.2.map Row.shown = b.1.block
  /-- All runs end in one column, three past the last connector. -/
  attach_le : ∀ b ∈ blocks, (b.1.underlined pen.settings raw).attach + 3 ≤ column
  attach_eq : ∃ b ∈ blocks, (b.1.underlined pen.settings raw).attach + 3 = column
  lead_underline : underline.lead.HasWidth start
  starts : ∀ b ∈ blocks, ∀ r ∈ b.2, r.StartsText start column
  hangs : ∀ above p block below, blocks = above ++ (p, block) :: below →
    ∃ first rest, block = first :: rest ∧
      p.Hangs pen raw column (underline :: above.flatMap (·.2)) first
        (rest ++ below.flatMap (·.2)) (below.map (·.1))

/-! ## Cells -/

namespace Marks

variable (pen : Pen) {later : Marks} {cell own column : Nat} {p : Placement}

/-- A connector hangs at a cell. -/
def Attaches (marks : Marks) (cell : Nat) : Prop := ∃ m ∈ marks, m.2.attach = cell

theorem isSome_attachedAt?_iff : (later.attachedAt? cell).isSome = true ↔ later.Attaches cell := by
  rw [attachedAt?, Option.isSome_map, List.find?_isSome]
  simp only [decide_eq_true_eq]
  rfl

theorem attaches_ofLabels_iff {raw : Text} {labels : List Placement} :
    (ofLabels pen (.ofLine pen.settings.tabWidth raw) labels).Attaches cell ↔
      Placement.IsHung pen raw labels cell := by
  constructor
  · rintro ⟨m, hm, hattach⟩
    obtain ⟨q, hq, rfl⟩ := List.mem_map.1 hm
    exact ⟨q, hq, hattach⟩
  · rintro ⟨q, hq, hattach⟩
    exact ⟨_, List.mem_map.2 ⟨q, hq, rfl⟩, hattach⟩

/-- The connectors of later messages hang down where they are not drawn over. -/
theorem not_blank_hangingCell (h : later.Attaches cell) :
    (hangingCell pen later cell).glyph.isBlank = false := by
  obtain ⟨q, hq⟩ := Option.isSome_iff_exists.1 (isSome_attachedAt?_iff.2 h)
  unfold hangingCell
  rw [hq]
  exact pen.not_blank_draw q (by simp [Glyphs.inCells])

/-- A run that is drawn over them is not blank either. -/
theorem not_blank_connectorCell (h : later.Attaches cell) :
    (connectorCell pen later p own cell).glyph.isBlank = false := by
  unfold connectorCell
  dsimp only
  split
  · refine pen.not_blank_draw p ?_
    split <;> simp [Glyphs.inCells]
  · split
    · exact pen.not_blank_drawRun p _
    · exact not_blank_hangingCell pen h

theorem attaches_of_hangingCell (h : pen.glyphs.IsVertical (hangingCell pen later cell).glyph) :
    later.Attaches cell := by
  unfold hangingCell at h
  split at h
  · next q hq => exact isSome_attachedAt?_iff.1 (by rw [hq]; rfl)
  · exact absurd h pen.settings.charSet.not_isVertical_blank

theorem crosses_of_isVertical {crosses : Bool}
    (h : pen.glyphs.IsVertical (pen.drawRun p crosses).glyph) : crosses = true := by
  cases crosses with
  | true => rfl
  | false => exact absurd h pen.settings.charSet.not_isVertical_horizontal

/-- In the first row of a message vertical connectors are those of its own label and of later
ones. -/
theorem attaches_of_connectorCell
    (h : pen.glyphs.IsVertical (connectorCell pen later p own cell).glyph) :
    own = cell ∨ later.Attaches cell := by
  unfold connectorCell at h
  dsimp only at h
  split at h
  · next hown => exact Or.inl hown.symm
  · split at h
    · exact Or.inr (isSome_attachedAt?_iff.1 (crosses_of_isVertical pen h))
    · exact Or.inr (attaches_of_hangingCell pen h)

/-- The cell at which its own connector hangs tells whether a later one hangs there, too. -/
theorem connectorCell_own (later : Marks) (p : Placement) (own : Nat) :
    (connectorCell pen later p own own).style = pen.styleOf p ∧
    ((connectorCell pen later p own own).glyph = pen.glyphs.branch ↔ later.Attaches own) ∧
    ((connectorCell pen later p own own).glyph = pen.glyphs.bottomCorner ↔
      ¬ later.Attaches own) := by
  have hne := pen.settings.charSet.branch_ne_bottomCorner
  rw [connectorCell, if_pos rfl, ← isSome_attachedAt?_iff]
  cases (later.attachedAt? own).isSome with
  | true => exact ⟨rfl, iff_of_true rfl rfl, iff_of_false hne fun h => h rfl⟩
  | false =>
    exact ⟨rfl, iff_of_false hne.symm Bool.false_ne_true, iff_of_true rfl Bool.false_ne_true⟩

/-! ## Columns -/

theorem le_messageColumn {marks : Marks} {m : Placement × CellRange} (h : m ∈ marks) :
    m.2.attach + 3 ≤ marks.messageColumn := by
  have hle : m.2.attach ≤ (marks.map (·.2.attach)).foldl max 0 :=
    le_foldl_max (List.mem_map.2 ⟨m, h, rfl⟩)
  exact Nat.add_le_add_right hle 3

theorem exists_messageColumn_eq {marks : Marks} (h : marks ≠ []) :
    ∃ m ∈ marks, m.2.attach + 3 = marks.messageColumn := by
  have hmax : (marks.map (·.2.attach)).foldl max 0 ∈ marks.map (·.2.attach) :=
    foldl_max_mem (by simpa using h)
  obtain ⟨m, hm, hattach⟩ := List.mem_map.1 hmax
  exact ⟨m, hm, by rw [messageColumn, hattach]⟩

end Marks

/-! ## Rows of a message -/

theorem Row.startsText {pen : Pen} {r : Row} {start column : Nat} {t : Text}
    (hlead : r.lead.HasWidth start) (hdrawn : ∀ c ∈ r.cells, pen.Draws c)
    (hlength : r.cells.length = column) (htext : runsText r.text = " " ++ t) :
    r.StartsText start column := by
  have hwidth := (Pen.isMonospaced_cells fun c hc => (hdrawn c hc).isDrawn).hasWidth
  rw [List.length_map, hlength] at hwidth
  refine ⟨hlead, hlength, ⟨t, htext, ?_⟩, (hlead.append hwidth).append (Text.hasWidth_spaces 1)⟩
  rw [written_eq, htext, ← List.append_assoc]

namespace Snippet

/-- The first row of a message has cells of its own, the others have the same. -/
theorem exists_messageRows_eq (pen : Pen) (p : Placement) (margin cells cellsBelow : List Cell)
    (lead : Text) :
    ∃ first rest, messageRows pen p margin margin cells cellsBelow lead = first :: rest ∧
      first.cells = cells ∧ ∀ r ∈ rest, r.cells = cellsBelow := by
  obtain ⟨line, lines, hlines⟩ := List.exists_cons_of_ne_nil
    (List.splitOn_ne_nil ('\n' : CodePoint) (p.message?.getD []))
  unfold messageRows Placement.messageRows Text.rows
  rw [hlines, List.mapIdx_cons]
  refine ⟨_, _, rfl, rfl, fun r hr => ?_⟩
  obtain ⟨n, -, rfl⟩ := List.mem_mapIdx.1 hr
  rfl

/-- Messages of labels of several lines have no cells. -/
theorem cells_of_mem_endingMessages {pen : Pen} {s : Snippet} {line : Nat} {endings : Lanes}
    {r : Row} (hr : r ∈ endingMessages pen s line endings) : r.cells = [] := by
  induction endings with
  | nil => cases hr
  | cons e later ih =>
    rw [endingMessages, List.mem_append] at hr
    rcases hr with hr | hr
    · obtain ⟨n, hn, rfl⟩ := List.mem_mapIdx.1 hr
      exact ite_self _
    · exact ih hr

end Snippet

/-! ## Blocks -/

namespace Marks

variable (pen : Pen) (margin : List Cell) (column : Nat) {cell : Nat} {r : Row}

/-- The rows of the message of a label, above those of later ones. -/
def messageBlock (p : Placement) (range : CellRange) (later : Marks) : List Row :=
  Snippet.messageRows pen p margin margin (connectors pen column later p range.attach)
    (hanging pen column later) " "

/-- The blocks of the messages with their labels. -/
def blocks : Marks → List (Placement × List Row)
  | [] => []
  | (p, range) :: later => (p, messageBlock pen margin column p range later) :: blocks later

theorem flatMap_blocks (marks : Marks) :
    (blocks pen margin column marks).flatMap (·.2) =
      Snippet.markMessages pen margin column marks := by
  induction marks with
  | nil => rfl
  | cons m later ih =>
    rw [blocks, List.flatMap_cons, ih]
    rfl

theorem map_fst_blocks (marks : Marks) :
    (blocks pen margin column marks).map (·.1) = marks.map (·.1) := by
  induction marks with
  | nil => rfl
  | cons m later ih => rw [blocks, List.map_cons, List.map_cons, ih]

variable {pen margin column} {p : Placement} {range : CellRange} {later : Marks}

theorem cells_of_mem_messageBlock (hr : r ∈ messageBlock pen margin column p range later) :
    r.cells = connectors pen column later p range.attach ∨ r.cells = hanging pen column later := by
  obtain ⟨first, rest, heq, hfirst, hrest⟩ := Snippet.exists_messageRows_eq pen p margin
    (connectors pen column later p range.attach) (hanging pen column later) " "
  rw [messageBlock, heq] at hr
  rcases List.mem_cons.1 hr with rfl | hr
  · exact Or.inl hfirst
  · exact Or.inr (hrest r hr)

theorem map_shown_messageBlock (hsingle : p.isMultiline = false) :
    (messageBlock pen margin column p range later).map Row.shown = p.block := by
  have hlead : p.messageLead = " " := by
    rw [Placement.messageLead, hsingle]
    rfl
  rw [messageBlock, Snippet.map_shown_messageRows, Placement.block, hlead]

/-- **Every row of a block** starts its text behind its cells. -/
theorem startsText_of_mem_messageBlock {s : Snippet} {line : Nat} {pending : List Placement}
    (hr : r ∈ messageBlock pen (Snippet.betweenMargin pen s pen.glyphs.vertical line pending)
      column p range later) : r.StartsText (pen.leadWidth s.lanes) column := by
  have hcells : r.cells.length = column ∧ ∀ c ∈ r.cells, pen.Draws c := by
    rcases cells_of_mem_messageBlock hr with hcells | hcells <;> rw [hcells]
    · exact ⟨by rw [connectors, List.length_map, List.length_range],
        fun c hc => draws_connectors pen column later p range.attach hc⟩
    · exact ⟨by rw [hanging, List.length_map, List.length_range],
        fun c hc => draws_hanging pen column later hc⟩
  obtain ⟨n, hn, rfl⟩ := List.mem_mapIdx.1 hr
  have hlead := (Snippet.isLed_underlineRow pen s line pending []).hasWidth_lead
  rw [ite_self] at hcells ⊢
  exact Row.startsText hlead hcells.2 hcells.1 (List.append_nil _)

/-- Where a later connector hangs, no row of a block is blank. -/
theorem not_blank_of_mem_messageBlock (hr : r ∈ messageBlock pen margin column p range later)
    (h : later.Attaches cell) (hlt : cell < column) :
    ∃ c, r.cells[cell]? = some c ∧ c.glyph.isBlank = false := by
  rcases cells_of_mem_messageBlock hr with hcells | hcells
  · rw [hcells, connectors, Snippet.getElem?_map_range hlt]
    exact ⟨_, rfl, not_blank_connectorCell pen h⟩
  · rw [hcells, hanging, Snippet.getElem?_map_range hlt]
    exact ⟨_, rfl, not_blank_hangingCell pen h⟩

theorem eq_of_getElem?_map_range {f : Nat → Cell} {c : Cell}
    (h : ((List.range column).map f)[cell]? = some c) : c = f cell := by
  obtain ⟨hlt, rfl⟩ := List.getElem?_eq_some_iff.1 h
  rw [List.getElem_map, List.getElem_range]

theorem attaches_of_hanging {c : Cell} (hc : (hanging pen column later)[cell]? = some c)
    (hvertical : pen.glyphs.IsVertical c.glyph) : later.Attaches cell := by
  rw [eq_of_getElem?_map_range hc] at hvertical
  exact attaches_of_hangingCell pen hvertical

/-- **Vertical connectors in blocks** are those of labels there. -/
theorem attaches_of_mem_blocks {marks : Marks} {c : Cell}
    (hr : r ∈ (blocks pen margin column marks).flatMap (·.2)) (hc : r.cells[cell]? = some c)
    (hvertical : pen.glyphs.IsVertical c.glyph) : marks.Attaches cell := by
  induction marks with
  | nil => cases hr
  | cons m later ih =>
    have hlater : Attaches later cell → Attaches (m :: later) cell :=
      fun ⟨m', hm', hattach⟩ => ⟨m', List.mem_cons_of_mem m hm', hattach⟩
    rw [blocks, List.flatMap_cons, List.mem_append] at hr
    rcases hr with hr | hr
    · rcases cells_of_mem_messageBlock hr with hcells | hcells <;> rw [hcells] at hc
      · rw [eq_of_getElem?_map_range hc] at hvertical
        rcases attaches_of_connectorCell pen hvertical with hown | h
        · exact ⟨m, List.mem_cons_self, hown⟩
        · exact hlater h
      · exact hlater (attaches_of_hanging hc hvertical)
    · exact hlater (ih hr)

variable {raw : Text} {ps : List Placement} {block : List Row}
  {above below : List (Placement × List Row)}

/-- **A block among the others**: it is drawn for its label above those of the later ones, and where
its connector hangs no row above it is blank. -/
theorem exists_of_blocks_eq
    (h : blocks pen margin column (ofLabels pen (.ofLine pen.settings.tabWidth raw) ps) =
      above ++ (p, block) :: below) :
    ∃ earlier later, ps = earlier ++ p :: later ∧
      block = messageBlock pen margin column p (p.underlined pen.settings raw)
        (ofLabels pen (.ofLine pen.settings.tabWidth raw) later) ∧
      below = blocks pen margin column (ofLabels pen (.ofLine pen.settings.tabWidth raw) later) ∧
      ((p.underlined pen.settings raw).attach < column → ∀ r ∈ above.flatMap (·.2),
        ∃ c, r.cells[(p.underlined pen.settings raw).attach]? = some c ∧
          c.glyph.isBlank = false) := by
  -- All blocks above are drawn above the connectors of the labels that remain, `p` among them.
  induction above generalizing ps with
  | nil =>
    cases ps with
    | nil => cases h
    | cons q later =>
      obtain ⟨hhead, hbelow⟩ := List.cons.inj h
      obtain ⟨rfl, hblock⟩ := Prod.mk.inj hhead
      exact ⟨[], later, rfl, hblock.symm, hbelow.symm, fun _ r hr => by cases hr⟩
  | cons b above ih =>
    cases ps with
    | nil => cases h
    | cons q rest =>
      obtain ⟨rfl, htail⟩ := List.cons.inj h
      obtain ⟨earlier, later, rfl, hblock, hbelow, habove⟩ := ih htail
      refine ⟨q :: earlier, later, rfl, hblock, hbelow, fun hlt r hr => ?_⟩
      rw [List.flatMap_cons, List.mem_append] at hr
      rcases hr with hr | hr
      · refine not_blank_of_mem_messageBlock hr ?_ hlt
        exact (attaches_ofLabels_iff pen).2 ⟨p, by simp, rfl⟩
      · exact habove hlt r hr

theorem exists_of_mem_blocks {b : Placement × List Row}
    (h : b ∈ blocks pen margin column (ofLabels pen (.ofLine pen.settings.tabWidth raw) ps)) :
    b.1 ∈ ps ∧ ∃ later, b.2 =
      messageBlock pen margin column b.1 (b.1.underlined pen.settings raw) later := by
  obtain ⟨above, below, heq⟩ := List.append_of_mem h
  obtain ⟨earlier, later, rfl, hblock, -⟩ := exists_of_blocks_eq heq
  exact ⟨by simp, _, hblock⟩

end Marks

/-! ## All messages below a line -/

namespace Placement

variable {pen : Pen} {raw : Text} {labels : List Placement} {p : Placement}

theorem isHung_iff {cell : Nat} :
    ((Marks.ofLabels pen (.ofLine pen.settings.tabWidth raw) labels).attachedAt? cell).isSome =
      true ↔ IsHung pen raw labels cell :=
  Marks.isSome_attachedAt?_iff.trans (Marks.attaches_ofLabels_iff pen)

/-- **The message of a label hangs from its underline**, as far as its own block shows it. -/
theorem hangs_of_cells {margin : List Cell} {column : Nat} {above below : List Row}
    (hlt : (p.underlined pen.settings raw).attach < column)
    (habove : ∀ r ∈ above, ∃ c, r.cells[(p.underlined pen.settings raw).attach]? = some c ∧
      c.glyph.isBlank = false)
    (hbelow : ∀ r ∈ below, ∀ c, r.cells[(p.underlined pen.settings raw).attach]? = some c →
      pen.glyphs.IsVertical c.glyph →
      IsHung pen raw labels (p.underlined pen.settings raw).attach) :
    ∃ first rest, Marks.messageBlock pen margin column p (p.underlined pen.settings raw)
        (.ofLabels pen (.ofLine pen.settings.tabWidth raw) labels) = first :: rest ∧
      p.Hangs pen raw column above first (rest ++ below) labels := by
  let later := Marks.ofLabels pen (.ofLine pen.settings.tabWidth raw) labels
  obtain ⟨first, rest, heq, hfirst, hrest⟩ := Snippet.exists_messageRows_eq pen p margin
    (Marks.connectors pen column later p (p.underlined pen.settings raw).attach)
    (Marks.hanging pen column later) " "
  refine ⟨first, rest, heq, habove, ?_, fun cell hown hcell => ?_, fun r hr c hc hvertical => ?_⟩
  · rw [hfirst, Marks.connectors, Snippet.getElem?_map_range hlt, ← Marks.attaches_ofLabels_iff]
    exact ⟨_, rfl, Marks.connectorCell_own pen later p _⟩
  · rw [hfirst, Marks.connectors, Snippet.getElem?_map_range hcell]
    refine ⟨(later.attachedAt? cell).isSome, congrArg some ?_, isHung_iff⟩
    rw [Marks.connectorCell, if_neg (Nat.ne_of_gt hown), if_pos hown]
  · rcases List.mem_append.1 hr with hr | hr
    · rw [hrest r hr] at hc
      exact (Marks.attaches_ofLabels_iff pen).1 (Marks.attaches_of_hanging hc hvertical)
    · exact hbelow r hr c hc hvertical

end Placement

namespace Snippet

variable (pen : Pen) (s : Snippet) (line : Nat) (pending : List Placement) (raw : Text)

/-- **Messages hang from their underlines** below any labels of one line. -/
theorem messagesHang {labels : List Placement} (hindices : (labels.map (·.index)).Nodup)
    (hsingle : ∀ p ∈ labels, p.isMultiline = false) (hsome : ∃ p ∈ labels, p.hasMessage = true) :
    let marks := Marks.ofLabels pen (.ofLine pen.settings.tabWidth raw) labels
    let margin := betweenMargin pen s pen.glyphs.vertical line pending
    Report.MessagesHang pen raw labels (underlineRow pen s line pending marks)
      (Marks.blocks pen margin marks.withMessages.messageColumn marks.withMessages)
      (pen.leadWidth s.lanes) marks.withMessages.messageColumn := by
  intro marks margin
  let order := Placement.messageOrder labels
  let hung := Marks.ofLabels pen (.ofLine pen.settings.tabWidth raw) order
  have hhung : marks.withMessages = hung := Marks.withMessages_ofLabels pen _ labels
  rw [hhung]
  have hfst : (Marks.blocks pen margin hung.messageColumn hung).map (·.1) = order := by
    rw [Marks.map_fst_blocks, Marks.map_fst_ofLabels]
  have hle : ∀ p ∈ order, (p.underlined pen.settings raw).attach + 3 ≤ hung.messageColumn :=
    fun p hp => Marks.le_messageColumn (List.mem_map.2 ⟨p, hp, rfl⟩ :
      (p, p.underlined pen.settings raw) ∈ hung)
  refine ⟨?_, ?_, fun b hb => ?_, fun b hb => hle b.1 (Marks.exists_of_mem_blocks hb).1, ?_, ?_,
    fun b hb r hr => ?_, fun above p block below heq => ?_⟩
  · rw [hfst]
    exact Placement.messageOrder_perm labels
  · rw [hfst]
    exact Placement.pairwise_messageOrder hindices
  · obtain ⟨hmem, later, heq⟩ := Marks.exists_of_mem_blocks hb
    rw [heq]
    exact Marks.map_shown_messageBlock (hsingle b.1 (Placement.mem_messageOrder.1 hmem).1)
  · obtain ⟨p, hp, hmessage⟩ := hsome
    have hne : hung ≠ [] := List.ne_nil_of_mem
      (List.mem_map.2 ⟨p, Placement.mem_messageOrder.2 ⟨hp, hmessage⟩, rfl⟩)
    obtain ⟨m, hm, hcolumn⟩ := Marks.exists_messageColumn_eq hne
    obtain ⟨q, hq, rfl⟩ := List.mem_map.1 hm
    rw [← hfst] at hq
    obtain ⟨b, hb, rfl⟩ := List.mem_map.1 hq
    exact ⟨b, hb, hcolumn⟩
  · exact (isLed_underlineRow pen s line pending _).hasWidth_lead
  · obtain ⟨-, later, heq⟩ := Marks.exists_of_mem_blocks hb
    rw [heq] at hr
    exact Marks.startsText_of_mem_messageBlock hr
  · obtain ⟨earlier, later, horder, rfl, rfl, habove⟩ := Marks.exists_of_blocks_eq heq
    have hp : p ∈ order := by
      rw [horder]
      simp
    have hlt : (p.underlined pen.settings raw).attach < hung.messageColumn :=
      Nat.lt_of_lt_of_le (by omega) (hle p hp)
    obtain ⟨hlabel, hmessage⟩ := Placement.mem_messageOrder.1 hp
    have hcovers : p.Covers pen.settings raw (p.underlined pen.settings raw).attach :=
      Placement.HangsAt.covers ⟨hmessage, rfl⟩
    have hunderline := underlines_underlineRow pen s line pending raw
      (List.ne_nil_of_mem hlabel) hindices
    rw [Marks.map_fst_blocks, Marks.map_fst_ofLabels]
    refine Placement.hangs_of_cells hlt (fun r hr => ?_) fun r hr c hc hvertical => ?_
    · rcases List.mem_cons.1 hr with rfl | hr
      · exact hunderline.exists_cell hlabel hcovers
      · exact habove hlt r hr
    · exact (Marks.attaches_ofLabels_iff pen).1 (Marks.attaches_of_mem_blocks hr hc hvertical)

end Snippet

/-! ## Reports -/

namespace Report

/-- **Messages hang from their underlines.** In a rich report the underlines of a line are followed
by the blocks of the messages of its labels of one line, in order, each of which hangs from its
underline. Behind them stand the messages of labels of several lines, without any cells. -/
theorem messages_hang (settings : Settings) (registry : Registry) (d : Diagnostic)
    (hrich : settings.detail = .rich) {file : SourceId} {s : Source} {line : Nat}
    (hs : registry.source? file = some s)
    (hsome : ∃ p ∈ d.labelsOn file s line, p.hasMessage = true) :
    ∃ l source underline blocks endings start column, s.lines[line]? = some l ∧
      source :: underline :: (blocks.flatMap (·.2) ++ endings) <:+:
        (ofDiagnostic settings registry d).rows ∧
      source.kind = .source line ∧ underline.kind = .underline line ∧
      MessagesHang (pen settings registry d) l.raw (d.labelsOn file s line) underline blocks start
        column ∧
      endings.map Row.shown = (((Snippet.ofFile settings registry d file).endings line).map
        (·.1)).flatMap (·.block) ∧
      ∀ r ∈ endings, r.cells = [] := by
  obtain ⟨p, hp, -⟩ := id hsome
  have hne : d.labelsOn file s line ≠ [] := List.ne_nil_of_mem hp
  obtain ⟨l, hl⟩ := Diagnostic.exists_line hne
  have hlabels := Snippet.labelsOn_ofFile settings d hs line
  have hrows := lineRows_infix_rows settings hrich hs hne
  rw [Snippet.lineRows_eq_of_marks _ _ s hl (hlabels ▸ hne), hlabels, ← Marks.flatMap_blocks]
    at hrows
  have hout := Snippet.isLaidOut_ofFile settings d hs
  have hhang := Snippet.messagesHang (pen settings registry d) (.ofFile settings registry d file)
    line (((Snippet.ofFile settings registry d file).endings line).map (·.1)) l.raw
    (d.nodup_labelsOn file s line) (fun p hp => Diagnostic.isMultiline_of_mem_labelsOn hp) hsome
  exact ⟨l, _, _, _, _, _, _, hl, hrows, rfl, rfl, hhang,
    Snippet.map_shown_endingMessages _ _ line fun e he => hout.isMultiline_of_mem_endings he,
    fun r hr => Snippet.cells_of_mem_endingMessages hr⟩

/-- Two messages hang at one cell: the connector of the first one goes on, that of the second one
ends. -/
theorem messages_hang_shared :
    let s : Source := ⟨.snippet "a", "abcd\n", by decide, ⟨1⟩, false⟩
    let upper : Label := { span := ⟨⟨1⟩, 0, 1, by decide, by decide⟩, message := some "x" }
    let lower : Label := { span := ⟨⟨1⟩, 0, 1, by decide, by decide⟩, message := some "y" }
    let d : Diagnostic := { level := .error, labels := [upper, lower] }
    ({} : Settings).detail = .rich ∧ (∃ p ∈ d.labelsOn ⟨1⟩ s 0, p.hasMessage = true) ∧
      ∃ source underline first rest second more below,
        source :: underline :: first :: rest ++ second :: more ++ below <:+:
          (ofDiagnostic {} ⟨[⟨s, s.name, none⟩]⟩ d).rows ∧
        (∃ c, first.cells[0]? = some c ∧ c.glyph = Glyphs.unicode.branch) ∧
        ∃ c, second.cells[0]? = some c ∧ c.glyph = Glyphs.unicode.bottomCorner := by
  intro s upper lower d
  let a : Placement := ⟨0, upper, 0, 1, 0, 0, 0, 1⟩
  let b : Placement := ⟨1, lower, 0, 1, 0, 0, 0, 1⟩
  have hlabels : d.labelsOn ⟨1⟩ s 0 = [a, b] := by decide +kernel
  have hsome : ∃ p ∈ d.labelsOn ⟨1⟩ s 0, p.hasMessage = true := by
    rw [hlabels]
    exact ⟨a, List.mem_cons_self, rfl⟩
  obtain ⟨l, source, underline, blocks, endings, start, column, hl, hrows, -, -, hhang, -, -⟩ :=
    messages_hang {} ⟨[⟨s, s.name, none⟩]⟩ d rfl rfl hsome
  have hraw : l.raw = "abcd\n" := by
    have hline : (s.lines[0]?.map (·.raw)) = some ("abcd\n" : Text) := by decide +kernel
    rw [hl] at hline
    exact Option.some.inj hline
  rw [hlabels, hraw] at hhang
  have ha : a.underlined {} "abcd\n" = ⟨0, 1, 0⟩ := by decide +kernel
  have hb : b.underlined {} "abcd\n" = ⟨0, 1, 0⟩ := by decide +kernel
  have hblocks : ∃ A B, blocks = [(a, A), (b, B)] := by
    have hperm : (blocks.map (·.1)).Perm [a, b] := hhang.speakers
    obtain ⟨⟨p, A⟩, ⟨q, B⟩, rfl⟩ := List.length_eq_two.1 ((List.length_map _).symm.trans
      hperm.length_eq)
    have hbefore : p.SpeaksBefore q := (List.pairwise_pair.1 hhang.ordered)
    unfold Placement.SpeaksBefore at hbefore
    rcases List.mem_pair.1 (hperm.mem_iff.1 (by simp : p ∈ [p, q])) with rfl | rfl <;>
      rcases List.mem_pair.1 (hperm.mem_iff.1 (by simp : q ∈ [_, q])) with rfl | rfl
    · exact absurd hbefore (by decide)
    · exact ⟨A, B, rfl⟩
    · exact absurd hbefore (by decide)
    · exact absurd hbefore (by decide)
  obtain ⟨A, B, rfl⟩ := hblocks
  obtain ⟨first, rest, rfl, hfirst⟩ := hhang.hangs [] a A [(b, B)] rfl
  obtain ⟨second, more, rfl, hsecond⟩ := hhang.hangs [(a, first :: rest)] b B [] rfl
  have hupper := congrArg CellRange.attach ha
  have hlower := congrArg CellRange.attach hb
  refine ⟨rfl, hsome, source, underline, first, rest, second, more, endings, ?_, ?_, ?_⟩
  · simpa only [List.flatMap_cons, List.flatMap_nil, List.append_nil, List.cons_append,
      List.append_assoc] using hrows
  · obtain ⟨c, hc, -, hbranch, -⟩ := hfirst.turns_off
    exact ⟨c, (congrArg (first.cells[·]?) hupper).symm.trans hc,
      hbranch.2 ⟨b, List.mem_cons_self, hlower.trans hupper.symm⟩⟩
  · obtain ⟨c, hc, -, -, hcorner⟩ := hsecond.turns_off
    exact ⟨c, (congrArg (second.cells[·]?) hlower).symm.trans hc,
      hcorner.2 fun ⟨q, hq, _⟩ => by cases hq⟩

end Report

end SourceReport
