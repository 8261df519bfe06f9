import SourceReport.Proofs.Report.Row
import SourceReport.Proofs.Text.Characters
import SourceReport.Report.Body

/-!
# Gutters and margins

In front of a row beside a snippet stand its gutter and its margin, which show numbers and lanes.
They take the same cells in every such row: the text and the underlines below it start in one
column.

* `Pen.leadWidth` is that column.
* `Cell.IsDrawn` is a cell that is blank or draws a glyph, `Row.IsLed` a row with such a gutter and
  margin; `Pen.Draws` says in which style the glyph stands.

Results:
* `Text.length_ofNat_mono`: a smaller number has no more digits.
* `Snippet.draws_sourceMargin`, `Marks.draws_underline`: lanes and underlines are drawn with glyphs
  that fill their cells.
* `Row.IsLed.hasWidth_lead`: what stands in front of a row is `Pen.leadWidth` cells wide.
-/

namespace SourceReport

/-! ## Numbers -/

namespace Text

theorem length_ofNat (n : Nat) : (ofNat n).length = (Nat.toDigits 10 n).length := by
  rw [ofNat_eq_map, List.length_map]

theorem length_ofNat_mono {m n : Nat} (h : m ≤ n) : (ofNat m).length ≤ (ofNat n).length := by
  rw [length_ofNat, length_ofNat]
  have hpos : 0 < (Nat.toDigits 10 n).length := Nat.length_toDigits_pos
  have hlt : n < 10 ^ (Nat.toDigits 10 n).length :=
    (Nat.length_toDigits_le_iff (by decide) hpos).1 (Nat.le_refl _)
  exact (Nat.length_toDigits_le_iff (by decide) hpos).2 (Nat.lt_of_le_of_lt h hlt)

theorem isMonospaced_ofNat (n : Nat) : (ofNat n).IsMonospaced := by
  intro c hc
  have hval : 48 ≤ c.val ∧ c.val ≤ 57 := by
    simpa [CodePoint.isAsciiDigit] using isAsciiDigit_of_mem_ofNat hc
  refine CodePoint.cells_of_lt (by omega) ?_
  rintro rfl
  exact absurd hval.1 (by decide)

theorem isMonospaced_padStart {t : Text} (h : t.IsMonospaced) (width : Nat) :
    (t.padStart width).IsMonospaced :=
  (isMonospaced_spaces _).append h

theorem length_padStart {t : Text} {width : Nat} (h : t.length ≤ width) :
    (t.padStart width).length = width := by
  rw [padStart, List.length_append, length_spaces]
  omega

end Text

/-! ## Gutters -/

namespace Pen

variable (pen : Pen)

/-- The glyphs of a pen fill their cells. -/
theorem isSingle_of_mem {c : CodePoint} (h : c ∈ pen.glyphs.inCells) : c.IsSingle :=
  Glyphs.isSingle_of_mem h

/-- What a gutter shows in place of the number. -/
def numberText (number : Option Nat) : Text :=
  match number with
  | some n => (Text.ofNat n).padStart pen.digits
  | none => Text.spaces pen.digits

/-- A line number fits into the gutter. -/
def Fits (number : Option Nat) : Prop := ∀ n ∈ number, (Text.ofNat n).length ≤ pen.digits

theorem runsText_gutter (number : Option Nat) :
    runsText (pen.gutter number) =
      pen.numberText number ++ Text.spaces 1 ++ [pen.glyphs.vertical] ++ Text.spaces 1 := by
  have hspace : (" " : Text) = Text.spaces 1 := rfl
  cases number <;>
    simp only [gutter, gutterWith, numberText, runsText_cons, hspace, List.append_assoc] <;>
    rw [runsText, List.flatMap_nil, List.append_nil]

theorem isMonospaced_numberText (number : Option Nat) : (pen.numberText number).IsMonospaced := by
  cases number with
  | none => exact Text.isMonospaced_spaces _
  | some n => exact Text.isMonospaced_padStart (Text.isMonospaced_ofNat n) _

theorem length_numberText {number : Option Nat} (h : pen.Fits number) :
    (pen.numberText number).length = pen.digits := by
  cases number with
  | none => exact Text.length_spaces _
  | some n => exact Text.length_padStart (h n rfl)

theorem isMonospaced_gutter (number : Option Nat) :
    (runsText (pen.gutter number)).IsMonospaced := by
  have hvertical : Text.IsMonospaced [pen.glyphs.vertical] := by
    intro c hc
    rw [List.mem_singleton.1 hc]
    exact (pen.isSingle_of_mem (by simp [Glyphs.inCells])).cells_eq
  rw [runsText_gutter]
  exact (((pen.isMonospaced_numberText number).append (Text.isMonospaced_spaces 1)).append
    hvertical).append (Text.isMonospaced_spaces 1)

/-- All gutters are of one width. -/
theorem length_gutter {number : Option Nat} (h : pen.Fits number) :
    (runsText (pen.gutter number)).length = pen.digits + 3 := by
  rw [runsText_gutter, List.length_append, List.length_append, List.length_append,
    pen.length_numberText h, Text.length_spaces, List.length_singleton]

end Pen

/-! ## Margins -/

/-- A cell that is blank or draws a glyph. -/
def Cell.IsDrawn (glyphs : Glyphs) (c : Cell) : Prop :=
  c.glyph = Cell.blank.glyph ∨ c.glyph ∈ glyphs.inCells

/-- The cells that a pen draws: blanks, and glyphs in the style of a label. -/
inductive Pen.Draws (pen : Pen) : Cell → Prop
  | blank : pen.Draws .blank
  | glyph (p : Placement) {glyph : CodePoint} (h : glyph ∈ pen.glyphs.inCells) :
    pen.Draws (pen.draw p glyph)

namespace Pen

variable {pen : Pen}

theorem Draws.isDrawn {c : Cell} (h : pen.Draws c) : c.IsDrawn pen.glyphs := by
  cases h with
  | blank => exact Or.inl rfl
  | glyph p h => exact Or.inr h

theorem draws_drawRun (p : Placement) (crosses : Bool) : pen.Draws (pen.drawRun p crosses) := by
  refine Draws.glyph p ?_
  split <;> simp [Glyphs.inCells]

/-- Cells that are drawn take one column each. -/
theorem isMonospaced_cells {cells : List Cell} (h : ∀ c ∈ cells, c.IsDrawn pen.glyphs) :
    Text.IsMonospaced (cells.map (·.glyph)) := by
  intro g hg
  obtain ⟨c, hc, rfl⟩ := List.mem_map.1 hg
  rcases h c hc with hblank | hglyph
  · rw [hblank]
    exact Text.isMonospaced_spaces 1 _ (List.mem_singleton.2 rfl)
  · exact (pen.isSingle_of_mem hglyph).cells_eq

end Pen

namespace Snippet

variable (pen : Pen) (s : Snippet)

theorem cornerGlyph_mem (line : Nat) (p : Placement) :
    cornerGlyph pen line p ∈ pen.glyphs.inCells := by
  unfold cornerGlyph
  split
  · simp [Glyphs.inCells]
  · split <;> simp [Glyphs.inCells]

/-- **The lanes beside a source line** are drawn with glyphs. -/
theorem draws_sourceMargin (line : Nat) {c : Cell} (hc : c ∈ sourceMargin pen s line) :
    pen.Draws c := by
  obtain ⟨cell, _, rfl⟩ := List.mem_map.1 hc
  unfold sourceMarginCell
  dsimp only
  split
  · exact Pen.Draws.glyph _ (cornerGlyph_mem pen line _)
  · split
    · split
      · exact Pen.Draws.glyph _ (by simp [Glyphs.inCells])
      · exact Pen.draws_drawRun _ _
    · split
      · exact Pen.Draws.glyph _ (by simp [Glyphs.inCells])
      · exact Pen.Draws.blank

theorem draws_betweenMargin {glyph : CodePoint} (h : glyph ∈ pen.glyphs.inCells) (line : Nat)
    (pending : List Placement) {c : Cell} (hc : c ∈ betweenMargin pen s glyph line pending) :
    pen.Draws c := by
  obtain ⟨cell, _, rfl⟩ := List.mem_map.1 hc
  split
  · exact Pen.Draws.glyph _ h
  · exact Pen.Draws.blank

theorem draws_messageMargin (line : Nat) (p : Placement) (lane : Nat) (pending : List Placement)
    {c : Cell} (hc : c ∈ messageMargin pen s line p lane pending) : pen.Draws c := by
  obtain ⟨cell, _, rfl⟩ := List.mem_map.1 hc
  unfold messageMarginCell
  dsimp only
  split
  · exact Pen.Draws.glyph _ (by simp [Glyphs.inCells])
  · split
    · exact Pen.draws_drawRun _ _
    · split
      · exact Pen.Draws.glyph _ (by simp [Glyphs.inCells])
      · exact Pen.Draws.blank

end Snippet

/-! ## Underlines and connectors -/

namespace Marks

variable (pen : Pen)

theorem draws_underline (marks : Marks) {c : Cell} (hc : c ∈ underline pen marks) :
    pen.Draws c := by
  obtain ⟨cell, _, rfl⟩ := List.mem_map.1 hc
  unfold underlineCell
  split
  · exact Pen.Draws.glyph _ (by simp [Glyphs.inCells])
  · split
    · refine Pen.Draws.glyph _ ?_
      split <;> simp [Glyphs.inCells]
    · exact Pen.Draws.blank

theorem draws_hangingCell (later : Marks) (cell : Nat) :
    pen.Draws (hangingCell pen later cell) := by
  unfold hangingCell
  split
  · exact Pen.Draws.glyph _ (by simp [Glyphs.inCells])
  · exact Pen.Draws.blank

theorem draws_hanging (column : Nat) (later : Marks) {c : Cell}
    (hc : c ∈ hanging pen column later) : pen.Draws c := by
  obtain ⟨cell, _, rfl⟩ := List.mem_map.1 hc
  exact draws_hangingCell pen later cell

theorem draws_connectors (column : Nat) (later : Marks) (p : Placement) (own : Nat) {c : Cell}
    (hc : c ∈ connectors pen column later p own) : pen.Draws c := by
  obtain ⟨cell, _, rfl⟩ := List.mem_map.1 hc
  unfold connectorCell
  dsimp only
  split
  · refine Pen.Draws.glyph _ ?_
    split <;> simp [Glyphs.inCells]
  · split
    · exact Pen.draws_drawRun _ _
    · exact draws_hangingCell pen later cell

end Marks

/-! ## Leads -/

/-- The column in which the text and the underlines of a snippet start. -/
def Pen.leadWidth (pen : Pen) (lanes : Lanes) : Nat := pen.digits + 3 + lanes.marginSize

/-- A row with a gutter and a margin that are drawn with a pen. -/
structure Row.IsLed (pen : Pen) (lanes : Lanes) (r : Row) : Prop where
  gutter : ∃ number, r.gutter = pen.gutter number ∧ pen.Fits number
  margin : ∀ c ∈ r.margin, c.IsDrawn pen.glyphs
  size : r.margin.length = lanes.marginSize

namespace Row.IsLed

variable {pen : Pen} {lanes : Lanes} {r : Row}

theorem isMonospaced_lead (h : r.IsLed pen lanes) : r.lead.IsMonospaced := by
  obtain ⟨number, hgutter, _⟩ := h.gutter
  rw [lead, hgutter]
  exact (pen.isMonospaced_gutter number).append (Pen.isMonospaced_cells h.margin)

theorem length_lead (h : r.IsLed pen lanes) : r.lead.length = pen.leadWidth lanes := by
  obtain ⟨number, hgutter, hfits⟩ := h.gutter
  rw [lead, hgutter, List.length_append, pen.length_gutter hfits, List.length_map, h.size,
    Pen.leadWidth]

/-- **What stands in front of the rows of a snippet** is of one width. -/
theorem hasWidth_lead (h : r.IsLed pen lanes) : r.lead.HasWidth (pen.leadWidth lanes) := by
  rw [← h.length_lead]
  exact h.isMonospaced_lead.hasWidth

end Row.IsLed

end SourceReport
