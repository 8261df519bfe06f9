import SourceReport.Layout.Cells
import SourceReport.Style.Glyphs

/-!
# Widths of what is printed

A source line is measured with tab stops, and its printed form must take the same cells on a
terminal whose tab stops are not known. So the printed form holds no tab, and its width is the same
for every tab width: that of the text it stands for, counted from the column in which that starts.

* `CodePoint.IsSingle` is a visible code point of one cell, in every column.
* `Text.HasWidth` is a text whose width does not depend on tab stops; one that is `IsMonospaced` is
  as wide as it is long.

Results:
* `RangeTable.exists_of_contains`: what is found in a table lies in one of its ranges.
* `Glyphs.isSingle_of_mem`: the glyphs of both sets are single.
* `Text.hasWidth_shown`: the printed form of a text is as wide as the text.
* `DisplayLine.columnOf_prefix`: the cell behind a prefix of the content is the width of the prefix.
* `CellRange.ofPlacement_prefix`: the cells of a label are the columns of what it covers.
-/

namespace SourceReport

/-! ## Tables -/

namespace RangeTable

variable {t : RangeTable} {c : CodePoint}

theorem exists_of_search {n low high : Nat} {r : Nat × Nat} (h : t.search n low high = some r) :
    r ∈ t.ranges ∧ r.1 ≤ n ∧ n ≤ r.2 := by
  fun_induction search t n low high with
  | case1 low high hlt mid hnone => cases h
  | case2 low high hlt mid range hget hless ih => exact ih h
  | case3 low high hlt mid range hget hless hmore ih => exact ih h
  | case4 low high hlt mid range hget hless hmore =>
    obtain rfl : range = r := Option.some.inj h
    exact ⟨Array.mem_of_getElem? hget, by omega, by omega⟩
  | case5 low high hlt => cases h

/-- A code point of a table lies in one of its ranges. -/
theorem exists_of_contains (h : t.contains c = true) :
    ∃ r ∈ t.ranges, r.1 ≤ c.val ∧ c.val ≤ r.2 := by
  obtain ⟨r, hr⟩ := Option.isSome_iff_exists.1 h
  exact ⟨r, exists_of_search hr⟩

/-- Between the ranges of a table there is nothing in it. -/
theorem contains_eq_false {low high : Nat}
    (h : t.ranges.toList.all (fun r => high < r.1 || r.2 < low) = true) (hlow : low ≤ c.val)
    (hhigh : c.val ≤ high) : t.contains c = false := by
  rw [← Bool.not_eq_true]
  intro hc
  obtain ⟨r, hr, hle, hge⟩ := exists_of_contains hc
  have hapart : high < r.1 ∨ r.2 < low := by
    simpa using List.all_eq_true.1 h r (Array.mem_toList_iff.2 hr)
  omega

end RangeTable

/-! ## Single code points -/

namespace CodePoint

variable {c : CodePoint}

/-- A visible code point that takes one cell wherever it stands. -/
structure IsSingle (c : CodePoint) : Prop where
  not_blank : c.isBlank = false
  cells_eq : ∀ tabWidth column, c.cells tabWidth column = 1

/-- The tables that give a code point another width than one cell. -/
def widthTables : List RangeTable :=
  [combiningRanges, formatRanges, wideRanges, unassignedRanges]

/-- Ranges between marks, format characters and wide characters: what stands below the soft hyphen,
which is the first of them, then lines, corners and triangles, and the replacement character. -/
def singleRanges : List (Nat × Nat) := [(0, 0xAC), (0x2500, 0x25B6), (0xFFFD, 0xFFFD)]

theorem singleRanges_apart : ∀ s ∈ singleRanges, ∀ t ∈ widthTables,
    t.ranges.toList.all (fun r => s.2 < r.1 || r.2 < s.1) = true := by
  decide +kernel

/-- In these ranges every code point but the tab takes one cell. -/
theorem cells_of_between {s : Nat × Nat} (hs : s ∈ singleRanges) (hlow : s.1 ≤ c.val)
    (hhigh : c.val ≤ s.2) (htab : c ≠ '\t') (tabWidth : Int) (column : Nat) :
    c.cells tabWidth column = 1 := by
  have hnone : ∀ t ∈ widthTables, t.contains c = false := fun t ht =>
    RangeTable.contains_eq_false (singleRanges_apart s hs t ht) hlow hhigh
  have hcombining : c.isCombining = false := hnone _ (by simp [widthTables])
  have hformat : c.isFormat = false := hnone _ (by simp [widthTables])
  have hwide : wideRanges.contains c = false := hnone _ (by simp [widthTables])
  have hassigned : c.isUnassigned = false := hnone _ (by simp [widthTables])
  simp [cells, if_neg htab, hcombining, hformat, isWide, hwide, hassigned]

theorem cells_of_lt (hc : c.val < 0xAD) (htab : c ≠ '\t') (tabWidth : Int) (column : Nat) :
    c.cells tabWidth column = 1 :=
  cells_of_between (s := (0, 0xAC)) (by decide) (Nat.zero_le _) (by dsimp only; omega) htab tabWidth
    column

theorem ne_tab_of_isBlank_eq_false (h : c.isBlank = false) : c ≠ '\t' := by
  rintro rfl
  exact absurd h (by decide)

/-- Only the width of a tab depends on where it stands. -/
theorem cells_eq_of_ne_tab (htab : c ≠ '\t') (tabWidth : Int) (column : Nat) :
    c.cells tabWidth column = c.cells 0 0 := by
  simp only [cells, if_neg htab]

/-- A control character that is no blank takes one cell. -/
theorem cells_of_isControl (hc : c.isControl = true) (hblank : c.isBlank = false) (tabWidth : Int)
    (column : Nat) : c.cells tabWidth column = 1 := by
  refine cells_of_lt ?_ (ne_tab_of_isBlank_eq_false hblank) tabWidth column
  simp [isControl] at hc
  omega

theorem isSingle_of_lt (hblank : c.isBlank = false) (hc : c.val < 0xAD) : c.IsSingle where
  not_blank := hblank
  cells_eq := cells_of_lt hc (ne_tab_of_isBlank_eq_false hblank)

/-- Lines, corners and triangles. -/
theorem isSingle_of_box (hlow : 0x2500 ≤ c.val) (hhigh : c.val ≤ 0x25B6) : c.IsSingle := by
  have hblank : c.isBlank = false := by
    simp [isBlank]
    omega
  have htab := ne_tab_of_isBlank_eq_false hblank
  exact ⟨hblank, cells_of_between (s := (0x2500, 0x25B6)) (by decide) hlow hhigh htab⟩

theorem isSingle_replacement : replacement.IsSingle where
  not_blank := by decide
  cells_eq := cells_of_between (s := (0xFFFD, 0xFFFD)) (by decide) (by decide) (by decide)
    (by decide)

end CodePoint

namespace Glyphs

/-- The glyphs that are drawn in cells. -/
def inCells (g : Glyphs) : List CodePoint :=
  [g.horizontal, g.vertical, g.crossing, g.verticalBreak, g.verticalGap, g.arrow, g.topCorner,
    g.bottomCorner, g.branch, g.junction, g.primaryUnderline, g.secondaryUnderline]

/-- **Every glyph that is drawn in a cell fills it**, in both sets. -/
theorem isSingle_of_mem {set : CharSet} {c : CodePoint} (h : c ∈ set.glyphs.inCells) :
    c.IsSingle := by
  cases set with
  | unicode =>
    have hbox : ∀ c ∈ unicode.inCells, 0x2500 ≤ c.val ∧ c.val ≤ 0x25B6 := by decide
    exact CodePoint.isSingle_of_box (hbox c h).1 (hbox c h).2
  | ascii =>
    have hascii : ∀ c ∈ ascii.inCells, c.isBlank = false ∧ c.val < 0xAD := by decide
    exact CodePoint.isSingle_of_lt (hascii c h).1 (hascii c h).2

end Glyphs

/-! ## Texts -/

namespace Text

variable {a b t : Text}

theorem columnAfter_append (tabWidth : Int) (column : Nat) (a b : Text) :
    columnAfter tabWidth column (a ++ b) =
      columnAfter tabWidth (columnAfter tabWidth column a) b := by
  induction a generalizing column with
  | nil => rfl
  | cons c a ih => simp only [List.cons_append, columnAfter, ih]

/-- A text that takes so many cells in every column and for every distance of tab stops. -/
def HasWidth (t : Text) (width : Nat) : Prop :=
  ∀ tabWidth column, columnAfter tabWidth column t = column + width

theorem hasWidth_nil : HasWidth [] 0 := fun _ _ => rfl

theorem HasWidth.append {m n : Nat} (ha : HasWidth a m) (hb : HasWidth b n) :
    HasWidth (a ++ b) (m + n) := by
  intro tabWidth column
  rw [columnAfter_append, ha, hb, Nat.add_assoc]

theorem HasWidth.cells_eq {n : Nat} (h : HasWidth t n) (tabWidth : Int) : t.cells tabWidth = n := by
  rw [cells, h, Nat.zero_add]

/-- A text in which every code point takes one cell, wherever it stands. -/
def IsMonospaced (t : Text) : Prop := ∀ c ∈ t, ∀ tabWidth column, c.cells tabWidth column = 1

theorem IsMonospaced.append (ha : IsMonospaced a) (hb : IsMonospaced b) :
    IsMonospaced (a ++ b) := by
  intro c hc
  rcases List.mem_append.1 hc with hc | hc
  · exact ha c hc
  · exact hb c hc

/-- Such a text is as wide as it is long. -/
theorem IsMonospaced.hasWidth (h : IsMonospaced t) : HasWidth t t.length := by
  intro tabWidth column
  induction t generalizing column with
  | nil => rfl
  | cons c t ih =>
    rw [columnAfter, h c List.mem_cons_self,
      ih (fun d hd => h d (List.mem_cons_of_mem c hd)), List.length_cons]
    omega

theorem isMonospaced_spaces (n : Nat) : IsMonospaced (spaces n) := by
  intro c hc tabWidth column
  rw [List.eq_of_mem_replicate hc]
  exact CodePoint.cells_of_lt (by decide) (by decide) tabWidth column

@[simp] theorem length_spaces (n : Nat) : (spaces n).length = n := List.length_replicate

theorem hasWidth_spaces (n : Nat) : HasWidth (spaces n) n := by
  have h := (isMonospaced_spaces n).hasWidth
  rwa [length_spaces] at h

end Text

/-! ## Printed forms -/

/-- **A code point is printed in the cells it takes.** -/
theorem CodePoint.hasWidth_shown (c : CodePoint) (tabWidth : Int) (column : Nat) :
    (c.shown (c.cells tabWidth column)).HasWidth (c.cells tabWidth column) := by
  cases hblank : c.isBlank with
  | true =>
    rw [shown, if_pos hblank]
    exact Text.hasWidth_spaces _
  | false =>
    cases hcontrol : c.isControl with
    | true =>
      rw [cells_of_isControl hcontrol hblank]
      simp only [shown, hblank, hcontrol, Bool.false_eq_true, if_false, if_true,
        Nat.one_ne_zero]
      intro tabWidth' column'
      exact congrArg (column' + ·) (isSingle_replacement.cells_eq tabWidth' column')
    | false =>
      -- Both sides are widths of the same code point, and only a tab has several.
      have htab := ne_tab_of_isBlank_eq_false hblank
      simp only [shown, hblank, hcontrol, Bool.false_eq_true, if_false]
      intro tabWidth' column'
      rw [cells_eq_of_ne_tab htab tabWidth column, ← cells_eq_of_ne_tab htab tabWidth' column']
      rfl

/-- What is printed for a code point that is no blank ends with a code point that is none. -/
theorem CodePoint.exists_shown_eq_singleton {c : CodePoint} (hblank : c.isBlank = false)
    (tabWidth : Int) (column : Nat) :
    ∃ d : CodePoint, c.shown (c.cells tabWidth column) = [d] ∧ d.isBlank = false := by
  cases hcontrol : c.isControl with
  | true =>
    refine ⟨.replacement, ?_, isSingle_replacement.not_blank⟩
    rw [cells_of_isControl hcontrol hblank]
    simp only [shown, hblank, hcontrol, Bool.false_eq_true, if_false, if_true, Nat.one_ne_zero]
  | false =>
    refine ⟨c, ?_, hblank⟩
    simp only [shown, hblank, hcontrol, Bool.false_eq_true, if_false]

/-- What is printed for a text that starts in a column. -/
def Text.shownFrom (tabWidth : Int) (column : Nat) : Text → Text
  | [] => []
  | c :: rest =>
    c.shown (c.cells tabWidth column) ++
      shownFrom tabWidth (column + c.cells tabWidth column) rest

namespace Text

theorem shownFrom_append (tabWidth : Int) (column : Nat) (a b : Text) :
    shownFrom tabWidth column (a ++ b) =
      shownFrom tabWidth column a ++ shownFrom tabWidth (columnAfter tabWidth column a) b := by
  induction a generalizing column with
  | nil => rfl
  | cons c a ih => simp only [List.cons_append, shownFrom, columnAfter, ih, List.append_assoc]

/-- **The printed form of a text** takes the cells of the text, wherever tab stops are. -/
theorem hasWidth_shownFrom (tabWidth : Int) (column : Nat) (t : Text) :
    ∃ width, (shownFrom tabWidth column t).HasWidth width ∧
      columnAfter tabWidth column t = column + width := by
  induction t generalizing column with
  | nil => exact ⟨0, hasWidth_nil, rfl⟩
  | cons c t ih =>
    obtain ⟨width, hwidth, hcolumn⟩ := ih (column + c.cells tabWidth column)
    refine ⟨c.cells tabWidth column + width, (c.hasWidth_shown tabWidth column).append hwidth, ?_⟩
    rw [columnAfter, hcolumn, Nat.add_assoc]

theorem hasWidth_shown (tabWidth : Int) (t : Text) :
    (shownFrom tabWidth 0 t).HasWidth (t.cells tabWidth) := by
  obtain ⟨width, hwidth, hcolumn⟩ := hasWidth_shownFrom tabWidth 0 t
  rw [Nat.zero_add] at hcolumn
  rwa [cells, hcolumn]

end Text

/-! ## Display lines -/

namespace DisplayLine

variable {tabWidth : Int} {raw : Text}

theorem layoutFrom_append (tabWidth : Int) (offset column : Nat) (a b : Text) :
    layoutFrom tabWidth offset column (a ++ b) = layoutFrom tabWidth offset column a ++
      layoutFrom tabWidth (offset + a.utf8Length) (Text.columnAfter tabWidth column a) b := by
  induction a generalizing offset column with
  | nil => rfl
  | cons c a ih =>
    simp only [List.cons_append, layoutFrom, Text.columnAfter, ih, Text.utf8Length_cons,
      Nat.add_assoc]

theorem flatMap_shown_layoutFrom (tabWidth : Int) (offset column : Nat) (t : Text) :
    (layoutFrom tabWidth offset column t).flatMap (·.shown) = t.shownFrom tabWidth column := by
  induction t generalizing offset column with
  | nil => rfl
  | cons c t ih => simp only [layoutFrom, List.flatMap_cons, ih, Text.shownFrom]

/-- The printed form of a line is that of its content. -/
theorem text_ofLine (tabWidth : Int) (raw : Text) :
    (ofLine tabWidth raw).text = raw.trimEnd.shownFrom tabWidth 0 :=
  flatMap_shown_layoutFrom tabWidth 0 0 raw.trimEnd

/-- The characters of a text have offsets inside it. -/
theorem offset_lt_of_mem_layoutFrom {offset column : Nat} {t : Text} {x : LaidOut}
    (h : x ∈ layoutFrom tabWidth offset column t) : x.offset < offset + t.utf8Length := by
  induction t generalizing offset column with
  | nil => cases h
  | cons c t ih =>
    have hpos := c.utf8Width_pos
    rw [Text.utf8Length_cons]
    rcases List.mem_cons.1 h with rfl | h
    · exact Nat.lt_add_of_pos_right (Nat.add_pos_left hpos _)
    · have := ih h
      omega

/-- A byte column behind the starts of the characters of a prefix, but not behind the prefix, counts
as its end. -/
theorem columnOf_eq_cells {a : Text} (h : a <+: raw.trimEnd) {byteColumn : Int}
    (hfront : ∀ x ∈ layoutFrom tabWidth 0 0 a, (x.offset : Int) < byteColumn)
    (hend : byteColumn ≤ a.utf8Length) :
    (ofLine tabWidth raw).columnOf byteColumn = a.cells tabWidth := by
  obtain ⟨b, hb⟩ := h
  have hnone : (layoutFrom tabWidth 0 0 a).find? (fun x => decide (byteColumn ≤ x.offset)) =
      none := by
    rw [List.find?_eq_none]
    intro x hx
    simpa using hfront x hx
  have hchars : (ofLine tabWidth raw).chars = layoutFrom tabWidth 0 0 a ++
      layoutFrom tabWidth a.utf8Length (a.cells tabWidth) b := by
    have happend := layoutFrom_append tabWidth 0 0 a b
    rw [Nat.zero_add] at happend
    rw [← Text.cells, hb] at happend
    exact happend
  rw [columnOf, hchars, List.find?_append, hnone, Option.none_or]
  cases b with
  | nil =>
    rw [List.append_nil] at hb
    simp only [layoutFrom, List.find?_nil, ofLine, ← hb]
    omega
  | cons c b => simp [layoutFrom, hend]

/-- **The cell behind a prefix of the content** is the width of the prefix. -/
theorem columnOf_prefix (tabWidth : Int) {a : Text} (h : a <+: raw.trimEnd) :
    (ofLine tabWidth raw).columnOf a.utf8Length = a.cells tabWidth := by
  refine columnOf_eq_cells h (fun x hx => ?_) (Int.le_refl _)
  have hlt := offset_lt_of_mem_layoutFrom hx
  omega

end DisplayLine

/-- **The cells of a label** whose ends are ends of prefixes of the content: the columns of what it
covers, and one column if that takes none. -/
theorem CellRange.ofPlacement_prefix {tabWidth : Int} {raw a b : Text} {attach : Attach}
    {p : Placement} (ha : a <+: raw.trimEnd) (hb : b <+: raw.trimEnd)
    (hstart : p.startColumn = a.utf8Length) (hstop : p.stopColumn = b.utf8Length)
    (hempty : p.length = 0 → p.startColumn = p.stopColumn) :
    (ofPlacement (.ofLine tabWidth raw) attach p).start = a.cells tabWidth ∧
      (ofPlacement (.ofLine tabWidth raw) attach p).stop =
        max (b.cells tabWidth) (a.cells tabWidth + 1) := by
  have hcolumn := DisplayLine.columnOf_prefix tabWidth ha
  have hcolumn' := DisplayLine.columnOf_prefix tabWidth hb
  rw [← hstart] at hcolumn
  rw [← hstop] at hcolumn'
  refine ⟨hcolumn, ?_⟩
  by_cases hlen : p.length = 0
  · have hsame : b.cells tabWidth = a.cells tabWidth := by
      rw [← hcolumn, ← hcolumn', hempty hlen]
    simp only [ofPlacement, if_pos hlen, hcolumn, hsame]
  · simp only [ofPlacement, if_neg hlen, hcolumn, hcolumn']

end SourceReport
