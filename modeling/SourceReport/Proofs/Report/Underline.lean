import SourceReport.Proofs.Layout.Order
import SourceReport.Proofs.Report.Lead

/-!
# Underlines

A cell below a source line shows a glyph of an underline just when a label covers it: the label that
owns the cell is one of those that cover it, and a connector hangs at a cell that its label covers.
The last cell of the row is covered, so that nothing of it is dropped.

* `CellRange.IsProper` is a range with a cell at which the connector hangs.
* `Row.IsUnderlinedAt` is a column of a row that shows a glyph of an underline.

Results:
* `Marks.glyph_underlineCell_mem_iff`: the cells underlined are those that labels cover.
* `Row.IsLed.isUnderlinedAt_iff`: so are the columns of the row of underlines.
-/

namespace SourceReport

/-! ## Ranges -/

/-- The connector hangs at a cell of the range. -/
structure CellRange.IsProper (r : CellRange) : Prop where
  start_le : r.start ≤ r.attach
  lt_stop : r.attach < r.stop

theorem CellRange.isProper_ofPlacement (line : DisplayLine) (attach : Attach) (p : Placement) :
    (ofPlacement line attach p).IsProper := by
  unfold ofPlacement
  cases attach <;> constructor <;> simp only [Attach.cell] <;> omega

theorem CellRange.covers_natCast (r : CellRange) (cell : Nat) :
    r.covers cell = true ↔ r.start ≤ cell ∧ cell < r.stop := by
  simp [covers]

namespace Placement

variable {ps : List Placement}

/-- Labels that cover a cell have one that owns it. -/
theorem exists_owner? (h : ps ≠ []) : ∃ p, owner? ps = some p := by
  have hne : sortOn claimKey ps ≠ [] := fun hnil =>
    h (hnil ▸ sortOn_perm claimKey ps).nil_eq.symm
  exact ⟨_, List.head?_eq_some_head hne⟩

theorem mem_of_owner? {p : Placement} (h : owner? ps = some p) : p ∈ ps :=
  (sortOn_perm claimKey ps).mem_iff.1 (List.mem_of_head? h)

end Placement

theorem le_foldl_max {xs : List Nat} {x n : Nat} (h : x ∈ xs) : x ≤ xs.foldl max n := by
  rw [List.foldl_max]
  exact Nat.le_trans (List.le_max?_getD_of_mem h) (Nat.le_max_right _ _)

theorem foldl_max_mem {xs : List Nat} (h : xs ≠ []) : xs.foldl max 0 ∈ xs := by
  obtain ⟨x, hx⟩ := Option.isSome_iff_exists.1 (List.isSome_max?_iff.2 h)
  rw [List.foldl_max, hx, Option.getD_some, Nat.zero_max]
  exact List.max?_mem hx

/-! ## Cells -/

/-- The glyphs that underlines consist of. -/
def Glyphs.underlines (g : Glyphs) : List CodePoint :=
  [g.junction, g.primaryUnderline, g.secondaryUnderline]

theorem Glyphs.mem_inCells_of_mem_underlines {g : Glyphs} {c : CodePoint} (h : c ∈ g.underlines) :
    c ∈ g.inCells := by
  simp only [underlines, List.mem_cons, List.not_mem_nil, or_false] at h
  rcases h with rfl | rfl | rfl <;> simp [inCells]

namespace Marks

variable (pen : Pen) {marks : Marks} {cell : Nat}

/-- Every connector hangs at a cell of its label. -/
def IsProper (marks : Marks) : Prop := ∀ m ∈ marks, m.2.IsProper

/-- A label covers the cell. -/
def Covers (marks : Marks) (cell : Nat) : Prop := ∃ m ∈ marks, m.2.start ≤ cell ∧ cell < m.2.stop

theorem isProper_ofLabels (line : DisplayLine) (labels : List Placement) :
    (ofLabels pen line labels).IsProper := by
  intro m hm
  obtain ⟨p, _, rfl⟩ := List.mem_map.1 hm
  exact CellRange.isProper_ofPlacement line _ p

theorem covers_ofLabels_iff {line : DisplayLine} {labels : List Placement} :
    (ofLabels pen line labels).Covers cell ↔
      ∃ p ∈ labels, (CellRange.ofPlacement line pen.settings.attach p).start ≤ cell ∧
        cell < (CellRange.ofPlacement line pen.settings.attach p).stop := by
  constructor
  · rintro ⟨m, hm, hcell⟩
    obtain ⟨p, hp, rfl⟩ := List.mem_map.1 hm
    exact ⟨p, hp, hcell⟩
  · rintro ⟨p, hp, hcell⟩
    exact ⟨_, List.mem_map.2 ⟨p, hp, rfl⟩, hcell⟩

theorem mem_of_mem_withMessages {m : Placement × CellRange} (h : m ∈ marks.withMessages) :
    m ∈ marks := by
  obtain ⟨p, _, hp⟩ := List.mem_filterMap.1 h
  obtain ⟨range, hrange, rfl⟩ := Option.map_eq_some_iff.1 hp
  obtain ⟨a, b, hab, _⟩ := List.lookup_eq_some_iff.1 hrange
  rw [hab]
  simp

/-- A cell where a connector hangs is covered by its label. -/
theorem covers_of_attachedAt? (hproper : marks.IsProper) {p : Placement}
    (h : marks.withMessages.attachedAt? cell = some p) : marks.Covers cell := by
  obtain ⟨m, hm, _⟩ := Option.map_eq_some_iff.1 h
  have hattach : m.2.attach = cell := by simpa using List.find?_some hm
  have hmem := mem_of_mem_withMessages (List.mem_of_find?_eq_some hm)
  obtain ⟨hstart, hstop⟩ := hproper m hmem
  exact ⟨m, hmem, by omega, by omega⟩

theorem covers_of_ownerAt? {p : Placement} (h : marks.ownerAt? cell = some p) :
    marks.Covers cell := by
  obtain ⟨m, hm, _⟩ := List.mem_map.1 (Placement.mem_of_owner? h)
  obtain ⟨hmem, hcovers⟩ := List.mem_filter.1 hm
  exact ⟨m, hmem, (m.2.covers_natCast cell).1 hcovers⟩

theorem exists_ownerAt? (h : marks.Covers cell) : ∃ p, marks.ownerAt? cell = some p := by
  obtain ⟨m, hm, hcell⟩ := h
  refine Placement.exists_owner? fun hnil => ?_
  have hmem : m ∈ marks.filter (·.2.covers cell) :=
    List.mem_filter.2 ⟨hm, (m.2.covers_natCast cell).2 hcell⟩
  rw [List.map_eq_nil_iff.1 hnil] at hmem
  cases hmem

/-- A cell that a label covers is drawn with a glyph of the underlines. -/
theorem glyph_underlineCell_mem (h : marks.Covers cell) :
    (underlineCell pen marks marks.withMessages cell).glyph ∈ pen.glyphs.underlines := by
  obtain ⟨owner, howner⟩ := exists_ownerAt? h
  unfold underlineCell
  split
  · simp [Pen.draw, Glyphs.underlines]
  · rw [howner]
    cases hemphasis : owner.label.emphasis <;> simp [Pen.draw, Glyphs.underlines, hemphasis]

/-- A cell that no label covers is blank. -/
theorem underlineCell_eq_blank (hproper : marks.IsProper) (h : ¬ marks.Covers cell) :
    underlineCell pen marks marks.withMessages cell = .blank := by
  unfold underlineCell
  split
  · next p hp => exact absurd (covers_of_attachedAt? hproper hp) h
  · split
    · next p hp => exact absurd (covers_of_ownerAt? hp) h
    · rfl

/-- **The cells underlined** are those that labels cover. -/
theorem glyph_underlineCell_mem_iff (hproper : marks.IsProper) :
    (underlineCell pen marks marks.withMessages cell).glyph ∈ pen.glyphs.underlines ↔
      marks.Covers cell := by
  refine ⟨fun h => ?_, glyph_underlineCell_mem pen⟩
  by_cases hcovers : marks.Covers cell
  · exact hcovers
  · rw [underlineCell_eq_blank pen hproper hcovers] at h
    have hsingle := pen.isSingle_of_mem (Glyphs.mem_inCells_of_mem_underlines h)
    exact absurd hsingle.not_blank (by decide)

/-! ## Rows of cells -/

/-- No label covers a cell behind the row. -/
theorem lt_width (h : marks.Covers cell) : cell < marks.width := by
  obtain ⟨m, hm, hcell⟩ := h
  have hle : m.2.stop ≤ marks.width := le_foldl_max (List.mem_map.2 ⟨m, hm, rfl⟩)
  omega

/-- A label covers the last cell of the row. -/
theorem exists_last (hproper : marks.IsProper) (hne : marks ≠ []) :
    ∃ last, marks.width = last + 1 ∧ marks.Covers last := by
  have hmax : marks.width ∈ marks.map (·.2.stop) := foldl_max_mem (by simpa using hne)
  obtain ⟨m, hm, hstop⟩ := List.mem_map.1 hmax
  obtain ⟨hstart, hattach⟩ := hproper m hm
  exact ⟨marks.width - 1, by omega, m, hm, by omega, by omega⟩

theorem getElem?_underline :
    (underline pen marks)[cell]? =
      if cell < marks.width then some (underlineCell pen marks marks.withMessages cell)
      else none := by
  rw [underline, List.getElem?_map]
  split
  · next h => rw [List.getElem?_range h]; rfl
  · next h => rw [List.getElem?_eq_none (by simpa using h)]; rfl

end Marks

/-! ## Columns -/

namespace Text

/-- Where every code point takes one cell, columns are places. -/
theorem IsMonospaced.occupies_singleton_iff {t : Text} (h : t.IsMonospaced) {c : CodePoint}
    {column : Nat} : t.Occupies [c] column (column + 1) ↔ t[column]? = some c := by
  constructor
  · rintro ⟨before, after, rfl, hbefore, _⟩
    have hfront : before.IsMonospaced := fun d hd => h d (by simp [hd])
    have hlen : before.length = column := by
      rw [← hfront.hasWidth.cells_eq 0, hbefore]
    rw [List.append_assoc, ← hlen, List.getElem?_append_right (Nat.le_refl _)]
    simp
  · intro hc
    obtain ⟨hlt, rfl⟩ := List.getElem?_eq_some_iff.1 hc
    have hsplit : t = t.take column ++ [t[column]] ++ t.drop (column + 1) := by
      rw [List.take_append_getElem, List.take_append_drop]
    have hfront : Text.IsMonospaced (t.take column) := fun d hd => h d (List.mem_of_mem_take hd)
    have hone : Text.IsMonospaced [t[column]] := fun d hd => by
      rw [List.mem_singleton.1 hd]
      exact h _ (List.getElem_mem hlt)
    have hwidth := hfront.hasWidth
    rw [List.length_take, Nat.min_eq_left (Nat.le_of_lt hlt)] at hwidth
    exact occupies_of_hasWidth hsplit hwidth hone.hasWidth

end Text

namespace Row

variable {pen : Pen} {lanes : Lanes} {marks : Marks} {r : Row}

/-- A column of a row shows a glyph of an underline. -/
def IsUnderlinedAt (glyphs : Glyphs) (r : Row) (column : Nat) : Prop :=
  ∃ c ∈ glyphs.underlines, r.written.Occupies [c] column (column + 1)

/-- Nothing of a row of underlines is dropped. -/
theorem written_underline (hmarks : marks.IsProper) (hne : marks ≠ [])
    (hcells : r.cells = Marks.underline pen marks) (htext : r.text = []) :
    r.written = r.lead ++ (Marks.underline pen marks).map (·.glyph) := by
  obtain ⟨last, hwidth, hlast⟩ := Marks.exists_last hmarks hne
  have hglyph := Marks.glyph_underlineCell_mem pen hlast
  -- The last cell shows a glyph, so the row does not end with a blank.
  have hvisible := pen.isSingle_of_mem (Glyphs.mem_inCells_of_mem_underlines hglyph)
  have hempty : runsText r.text = [] := by rw [htext]; rfl
  rw [written_eq, hcells, hempty, List.append_nil, Marks.underline, hwidth, List.range_succ,
    List.map_append, List.map_append, ← List.append_assoc, List.map_singleton, List.map_singleton]
  exact Text.trimEnd_append_singleton hvisible.not_blank _

/-- **The columns underlined** behind what stands in front of a row of underlines are those that
labels cover. -/
theorem IsLed.isUnderlinedAt_iff (hled : r.IsLed pen lanes) (hmarks : marks.IsProper)
    (hne : marks ≠ []) (hcells : r.cells = Marks.underline pen marks) (htext : r.text = [])
    (cell : Nat) :
    r.IsUnderlinedAt pen.glyphs (pen.leadWidth lanes + cell) ↔ marks.Covers cell := by
  have hwritten := written_underline hmarks hne hcells htext
  have hmono : r.written.IsMonospaced := by
    rw [hwritten]
    exact hled.isMonospaced_lead.append
      (Pen.isMonospaced_cells fun c hc => (Marks.draws_underline pen marks hc).isDrawn)
  have hplace : r.written[pen.leadWidth lanes + cell]? =
      (Marks.underline pen marks)[cell]?.map (·.glyph) := by
    rw [hwritten, ← hled.length_lead, List.getElem?_append_right (Nat.le_add_right _ _),
      Nat.add_sub_cancel_left, List.getElem?_map]
  rw [← Marks.glyph_underlineCell_mem_iff pen hmarks]
  constructor
  · rintro ⟨c, hc, hoccupies⟩
    rw [hmono.occupies_singleton_iff, hplace, Marks.getElem?_underline] at hoccupies
    split at hoccupies
    · obtain rfl := Option.some.inj hoccupies
      exact hc
    · cases hoccupies
  · intro hc
    have hlt := Marks.lt_width ((Marks.glyph_underlineCell_mem_iff pen hmarks).1 hc)
    refine ⟨_, hc, ?_⟩
    rw [hmono.occupies_singleton_iff, hplace, Marks.getElem?_underline, if_pos hlt]
    rfl

end Row

end SourceReport
