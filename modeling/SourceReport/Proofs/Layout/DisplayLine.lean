import SourceReport.Proofs.Layout.Width

/-!
# What display lines keep

Three things are told of a source line at once: the byte at which each of its characters starts, the
cell in which it starts, and what is printed in its cells. They fit together after every character,
also where the printed characters are others than those of the source.

* `DisplayLine.byteOffsets` and `DisplayLine.columns` list the starts of the characters; the last
  column is the one behind them.
* `DisplayLine.IsOrdered` says that the characters of a line start one behind the other, and no
  further than it reaches.

Results:
* `DisplayLine.isOrdered_ofLine`: lines are laid out in order.
* `DisplayLine.IsOrdered.columnOf_mono`: then later byte columns have no smaller cells.
* `CodePoint.isPrintable_of_mem_shown`: nothing is printed that moves the cursor, and no blank but
  the space.
* `DisplayLine.lays_out`: the bytes, the cells and the print of a line agree.
-/

namespace SourceReport

/-! ## Print -/

/-- A code point that moves no cursor, and takes no blank cell unless it is a space. -/
structure CodePoint.IsPrintable (c : CodePoint) : Prop where
  not_control : c.isControl = false
  eq_space : c.isBlank = true → c = ' '

/-- **What is printed** for a code point is printable, whatever cells it takes. -/
theorem CodePoint.isPrintable_of_mem_shown {c d : CodePoint} {cells : Nat}
    (h : d ∈ c.shown cells) : d.IsPrintable := by
  unfold shown at h
  split at h
  · rw [List.eq_of_mem_replicate h]
    exact ⟨by decide, fun _ => rfl⟩
  · next hblank =>
    split at h
    · split at h
      · exact absurd h List.not_mem_nil
      · rw [List.mem_singleton.1 h]
        exact ⟨by decide, by decide⟩
    · next hcontrol =>
      rw [List.mem_singleton.1 h]
      exact ⟨by simpa using hcontrol, fun hc => absurd hc hblank⟩

theorem Text.isPrintable_of_mem_shownFrom {tabWidth : Int} {column : Nat} {t : Text}
    {c : CodePoint} (h : c ∈ shownFrom tabWidth column t) : c.IsPrintable := by
  induction t generalizing column with
  | nil => exact absurd h List.not_mem_nil
  | cons d t ih =>
    rcases List.mem_append.1 h with h | h
    · exact CodePoint.isPrintable_of_mem_shown h
    · exact ih h

namespace DisplayLine

variable {tabWidth : Int} {raw : Text} {l : DisplayLine}

/-- The bytes at which the characters of a line start. -/
def byteOffsets (l : DisplayLine) : List Nat := l.chars.map (·.offset)

/-- The cells in which the characters of a line start, and the cell behind the last one. -/
def columns (l : DisplayLine) : List Nat := l.chars.map (·.column) ++ [l.width]

/-! ## Order -/

/-- The characters of a line start one behind the other. -/
structure IsOrdered (l : DisplayLine) : Prop where
  pairwise : l.chars.Pairwise fun x y => x.offset < y.offset ∧ x.column ≤ y.column
  bounds : ∀ x ∈ l.chars, x.offset < l.bytes ∧ x.column ≤ l.width

theorem columnAfter_le (tabWidth : Int) (column : Nat) (t : Text) :
    column ≤ Text.columnAfter tabWidth column t := by
  obtain ⟨width, -, hwidth⟩ := t.hasWidth_shownFrom tabWidth column
  omega

/-- The characters of a text start between its start and its end. -/
theorem bounds_of_mem_layoutFrom {offset column : Nat} {t : Text} {x : LaidOut}
    (h : x ∈ layoutFrom tabWidth offset column t) :
    offset ≤ x.offset ∧ column ≤ x.column ∧ x.column ≤ Text.columnAfter tabWidth column t := by
  induction t generalizing offset column with
  | nil => exact absurd h List.not_mem_nil
  | cons c t ih =>
    rcases List.mem_cons.1 h with rfl | h
    · exact ⟨Nat.le_refl _, Nat.le_refl _, columnAfter_le tabWidth column (c :: t)⟩
    · obtain ⟨hoffset, hcolumn, hwidth⟩ := ih h
      exact ⟨by omega, by omega, hwidth⟩

theorem pairwise_layoutFrom (tabWidth : Int) (offset column : Nat) (t : Text) :
    (layoutFrom tabWidth offset column t).Pairwise fun x y =>
      x.offset < y.offset ∧ x.column ≤ y.column := by
  induction t generalizing offset column with
  | nil => exact List.Pairwise.nil
  | cons c t ih =>
    refine List.Pairwise.cons (fun y hy => ?_) (ih _ _)
    obtain ⟨hoffset, hcolumn, -⟩ := bounds_of_mem_layoutFrom hy
    have hpos := c.utf8Width_pos
    exact ⟨by dsimp only; omega, by dsimp only; omega⟩

/-- **Lines are laid out in order.** -/
theorem isOrdered_ofLine (tabWidth : Int) (raw : Text) : (ofLine tabWidth raw).IsOrdered where
  pairwise := pairwise_layoutFrom tabWidth 0 0 raw.trimEnd
  bounds := by
    intro x hx
    have hoffset := offset_lt_of_mem_layoutFrom hx
    rw [Nat.zero_add] at hoffset
    exact ⟨hoffset, (bounds_of_mem_layoutFrom hx).2.2⟩

namespace IsOrdered

theorem byteOffsets (h : l.IsOrdered) : l.byteOffsets.Pairwise (· < ·) :=
  List.pairwise_map.2 (h.pairwise.imp And.left)

theorem columns (h : l.IsOrdered) : l.columns.Pairwise (· ≤ ·) := by
  refine List.pairwise_append.2
    ⟨List.pairwise_map.2 (h.pairwise.imp And.right), List.pairwise_singleton _ _, ?_⟩
  intro column hcolumn width hwidth
  obtain ⟨x, hx, rfl⟩ := List.mem_map.1 hcolumn
  rw [List.mem_singleton.1 hwidth]
  exact (h.bounds x hx).2

/-- **Later byte columns** have no smaller cells. -/
theorem columnOf_mono (h : l.IsOrdered) {m n : Int} (hmn : m ≤ n) :
    l.columnOf m ≤ l.columnOf n := by
  obtain ⟨chars, bytes, width⟩ := l
  obtain ⟨hpairwise, hbounds⟩ := h
  dsimp only at hpairwise hbounds
  simp only [columnOf]
  induction chars with
  | nil =>
    simp only [List.find?_nil]
    omega
  | cons x rest ih =>
    obtain ⟨hx, hrest⟩ := List.pairwise_cons.1 hpairwise
    by_cases hm : m ≤ x.offset
    · -- The first column is found, and no other one is smaller.
      rw [List.find?_cons_of_pos (by simpa using hm)]
      cases hfind : (x :: rest).find? (fun y => decide (n ≤ y.offset)) with
      | none =>
        dsimp only
        have hwidth := (hbounds x List.mem_cons_self).2
        omega
      | some y =>
        rcases List.mem_cons.1 (List.mem_of_find?_eq_some hfind) with rfl | hy
        · exact Nat.le_refl _
        · exact (hx y hy).2
    · have hn : ¬ n ≤ x.offset := by omega
      rw [List.find?_cons_of_neg (by simpa using hm), List.find?_cons_of_neg (by simpa using hn)]
      exact ih hrest fun y hy => hbounds y (List.mem_cons_of_mem x hy)

/-- Behind the content every byte counts as a cell. -/
theorem columnOf_bytes_add (h : l.IsOrdered) (n : Nat) :
    l.columnOf (l.bytes + n) = l.width + n := by
  have hnone : l.chars.find? (fun x => decide ((l.bytes + n : Int) ≤ x.offset)) = none := by
    rw [List.find?_eq_none]
    intro x hx
    have hoffset := (h.bounds x hx).1
    simp
    omega
  rw [columnOf, hnone]
  dsimp only
  omega

end IsOrdered

/-! ## Bytes, cells and print -/

/-- **A byte column inside a character** counts as the end of the character. -/
theorem columnOf_inside {a : Text} {c : CodePoint} (h : a ++ [c] <+: raw.trimEnd) {byteColumn : Int}
    (hstart : a.utf8Length < byteColumn) (hend : byteColumn ≤ (a ++ [c]).utf8Length) :
    (ofLine tabWidth raw).columnOf byteColumn = (a ++ [c]).cells tabWidth := by
  refine columnOf_eq_cells h (fun x hx => ?_) hend
  rw [layoutFrom_append, List.mem_append, layoutFrom, layoutFrom, List.mem_singleton] at hx
  rcases hx with hx | rfl
  · have hlt := offset_lt_of_mem_layoutFrom hx
    omega
  · dsimp only
    omega

theorem length_layoutFrom (tabWidth : Int) (offset column : Nat) (t : Text) :
    (layoutFrom tabWidth offset column t).length = t.length := by
  induction t generalizing offset column with
  | nil => rfl
  | cons c t ih => rw [layoutFrom, List.length_cons, ih, List.length_cons]

/-- What is printed for the characters of a prefix of the content is its printed form. -/
theorem flatMap_shown_take {a : Text} (h : a <+: raw.trimEnd) :
    ((ofLine tabWidth raw).chars.take a.length).flatMap (·.shown) = a.shownFrom tabWidth 0 := by
  obtain ⟨b, hb⟩ := h
  have hlength := length_layoutFrom tabWidth 0 0 a
  have hchars : (ofLine tabWidth raw).chars = layoutFrom tabWidth 0 0 (a ++ b) := by
    rw [hb]
    rfl
  rw [hchars, layoutFrom_append, ← hlength, List.take_left, flatMap_shown_layoutFrom]

/-- **Bytes, cells and print of a line agree.** Each prefix of the content ends in the column of its
width, and what is printed for it takes these cells whatever tab stops it is measured with. The
characters start one behind the other; later byte columns have no smaller cells, those inside a
character the cell of the next one, and every byte behind the content one cell more. Nothing is
printed that moves the cursor, and no blank but the space. -/
theorem lays_out (tabWidth : Int) (raw : Text) :
    (∀ a : Text, a <+: raw.trimEnd →
      (ofLine tabWidth raw).columnOf a.utf8Length = a.cells tabWidth ∧
        Text.HasWidth (((ofLine tabWidth raw).chars.take a.length).flatMap (·.shown))
          (a.cells tabWidth)) ∧
    (ofLine tabWidth raw).byteOffsets.Pairwise (· < ·) ∧
    (ofLine tabWidth raw).columns.Pairwise (· ≤ ·) ∧
    (∀ m n : Int, m ≤ n → (ofLine tabWidth raw).columnOf m ≤ (ofLine tabWidth raw).columnOf n) ∧
    (∀ (a : Text) (c : CodePoint), a ++ [c] <+: raw.trimEnd → ∀ byteColumn : Int,
      a.utf8Length < byteColumn → byteColumn ≤ (a ++ [c]).utf8Length →
        (ofLine tabWidth raw).columnOf byteColumn =
          (ofLine tabWidth raw).columnOf (a ++ [c]).utf8Length) ∧
    (∀ n : Nat, (ofLine tabWidth raw).columnOf ((ofLine tabWidth raw).bytes + n) =
      (ofLine tabWidth raw).width + n) ∧
    ∀ c ∈ (ofLine tabWidth raw).text, c.isControl = false ∧ (c.isBlank = true → c = ' ') := by
  have hordered := isOrdered_ofLine tabWidth raw
  refine ⟨fun a ha => ?_, hordered.byteOffsets, hordered.columns,
    fun m n hmn => hordered.columnOf_mono hmn, fun a c hac byteColumn hstart hend => ?_,
    hordered.columnOf_bytes_add, fun c hc => ?_⟩
  · have hcolumn := columnOf_prefix tabWidth ha
    rw [flatMap_shown_take ha]
    exact ⟨hcolumn, Text.hasWidth_shown tabWidth a⟩
  · rw [columnOf_inside hac hstart hend, columnOf_prefix tabWidth hac]
  · rw [text_ofLine] at hc
    obtain ⟨hcontrol, hspace⟩ := Text.isPrintable_of_mem_shownFrom hc
    exact ⟨hcontrol, hspace⟩

/-- A tab, a character of two bytes and a control character, with blanks behind them. -/
theorem lays_out_tab :
    let line := ofLine 4 "\té\x07b \n"
    (("\té" : Text) <+: Text.trimEnd "\té\x07b \n" ∧
      line.columnOf 3 = Text.cells 4 "\té" ∧
        Text.HasWidth ((line.chars.take 2).flatMap (·.shown)) (Text.cells 4 "\té")) ∧
    line.columnOf (-1) ≤ line.columnOf 2 ∧
    (Text.utf8Length "\t" < 2 ∧ 2 ≤ Text.utf8Length ("\t" ++ [CodePoint.ofChar 'é']) ∧
      line.columnOf 2 = line.columnOf 3) ∧
    line.columnOf 9 = line.width + 4 ∧ ('\x07' : CodePoint) ∉ line.text := by
  intro line
  obtain ⟨hcolumn, -, -, hmono, hinside, hbehind, hprint⟩ := lays_out 4 "\té\x07b \n"
  have htwo : ("\té" : Text) <+: Text.trimEnd "\té\x07b \n" := ⟨"\x07b", rfl⟩
  refine ⟨⟨htwo, hcolumn _ htwo⟩, hmono (-1) 2 (by decide), ⟨by decide, by decide, ?_⟩,
    hbehind 4, fun hbell => ?_⟩
  · exact hinside "\t" 'é' htwo 2 (by decide) (by decide)
  · exact Bool.false_ne_true ((hprint _ hbell).1.symm.trans (by decide))

end DisplayLine

end SourceReport
