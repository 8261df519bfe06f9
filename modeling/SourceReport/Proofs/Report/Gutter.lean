import SourceReport.Proofs.Report.Connectors

/-!
# Gutters are aligned

The gutter of a rich report has room for its largest line number. It is measured before any row is
drawn, over the windows of all sources, and every row beside a snippet draws a gutter of its own: so
the rows are aligned only if all of these gutters are as wide as the numbers that are printed in the
end.

* `Report.numberWidth` is the number of digits of the largest line number that a report prints.
* `Row.StandsBeside` is what rows beside a snippet have in common, `Row.GutterAligns` is what a row
  with an aligned gutter shows.

Results:
* `Snippet.standsBeside_of_mem_bodyRows`: all rows of a body have such gutters and margins.
* `Report.numberWidth_eq`: the gutter has room for the numbers that are printed, and for no more.
* `Report.gutters_align`: numbers, borders, notes and texts of a rich report are aligned.
-/

namespace SourceReport

/-! ## Gutters and margins of rows -/

/-- The line number in the gutter of a row. -/
def RowKind.number : RowKind → Option Nat
  | .source line => some (line + 1)
  | _ => none

/-- The border of a row beside a snippet. It is broken where lines are skipped. -/
def RowKind.borderGlyph (glyphs : Glyphs) : RowKind → CodePoint
  | .skipped .. => glyphs.verticalBreak
  | _ => glyphs.vertical

theorem RowKind.borderGlyph_mem (glyphs : Glyphs) (kind : RowKind) :
    kind.borderGlyph glyphs ∈ glyphs.inCells := by
  unfold borderGlyph
  split <;> simp [Glyphs.inCells]

/-- What the rows beside a snippet have in common: a gutter with a border, and a margin for the
lanes in front of everything that the snippet shows. -/
structure Row.StandsBeside (pen : Pen) (lanes : Lanes) (r : Row) : Prop where
  gutter : ∃ style, r.gutter = pen.gutterWith r.kind.number ⟨[r.kind.borderGlyph pen.glyphs], style⟩
  size : r.kind.isBody = true → r.margin.length = lanes.marginSize
  margin : ∀ c ∈ r.margin, c.IsDrawn pen.glyphs

namespace Snippet

variable (pen : Pen) (s : Snippet) {source : Source} {line : Nat} {r : Row}

theorem length_betweenMargin (glyph : CodePoint) (pending : List Placement) :
    (betweenMargin pen s glyph line pending).length = s.lanes.marginSize := by
  rw [betweenMargin, List.length_map, List.length_range]

/-- The rows of a message stand beside the snippet if their margins do. -/
theorem standsBeside_of_mem_messageRows {p : Placement}
    {margin margins cells cellsBelow : List Cell} {lead : Text}
    (hmargin : margin.length = s.lanes.marginSize ∧ ∀ c ∈ margin, c.IsDrawn pen.glyphs)
    (hmargins : margins.length = s.lanes.marginSize ∧ ∀ c ∈ margins, c.IsDrawn pen.glyphs)
    (hr : r ∈ messageRows pen p margin margins cells cellsBelow lead) :
    r.StandsBeside pen s.lanes := by
  obtain ⟨n, hn, rfl⟩ := List.mem_mapIdx.1 hr
  refine ⟨⟨_, rfl⟩, fun _ => ?_, ?_⟩
  · dsimp only
    split
    · exact hmargin.1
    · exact hmargins.1
  · dsimp only
    split
    · exact hmargin.2
    · exact hmargins.2

theorem standsBeside_of_mem_lineRows (hr : r ∈ lineRows pen s source line) :
    r.StandsBeside pen s.lanes := by
  have hbetween (pending : List Placement) :
      (betweenMargin pen s pen.glyphs.vertical line pending).length = s.lanes.marginSize ∧
        ∀ c ∈ betweenMargin pen s pen.glyphs.vertical line pending, c.IsDrawn pen.glyphs :=
    ⟨length_betweenMargin pen s _ pending, fun c hc =>
      (draws_betweenMargin pen s (by simp [Glyphs.inCells]) line pending hc).isDrawn⟩
  have hmarks : ∀ (column : Nat) (margin : List Cell) (marks : Marks),
      (margin.length = s.lanes.marginSize ∧ ∀ c ∈ margin, c.IsDrawn pen.glyphs) →
      r ∈ markMessages pen margin column marks → r.StandsBeside pen s.lanes := by
    intro column margin marks hmargin
    induction marks with
    | nil => intro hr; cases hr
    | cons m later ih =>
      intro hr
      rcases List.mem_append.1 hr with hr | hr
      · exact standsBeside_of_mem_messageRows pen s hmargin hmargin hr
      · exact ih hr
  have hendings : ∀ endings : Lanes, r ∈ endingMessages pen s line endings →
      r.StandsBeside pen s.lanes := by
    intro endings
    induction endings with
    | nil => intro hr; cases hr
    | cons e later ih =>
      obtain ⟨p, lane⟩ := e
      intro hr
      rcases List.mem_append.1 hr with hr | hr
      · refine standsBeside_of_mem_messageRows pen s ⟨?_, fun c hc => ?_⟩ (hbetween _) hr
        · rw [messageMargin, List.length_map, List.length_range]
        · exact (draws_messageMargin pen s line p lane _ hc).isDrawn
      · exact ih hr
  rcases List.mem_append.1 hr with hr | hr
  · rcases List.mem_cons.1 hr with rfl | hr
    · refine ⟨⟨_, rfl⟩, fun _ => ?_, fun c hc => (draws_sourceMargin pen s line hc).isDrawn⟩
      rw [sourceRow, sourceMargin, List.length_map, List.length_range]
    · unfold markRows at hr
      split at hr
      · cases hr
      · rcases List.mem_cons.1 hr with rfl | hr
        · exact ⟨⟨_, rfl⟩, fun _ => (hbetween _).1, (hbetween _).2⟩
        · exact hmarks _ _ _ (hbetween _) hr
  · exact hendings _ hr

/-- **The rows of a body** stand beside the snippet. -/
theorem standsBeside_of_mem_bodyRows (hr : r ∈ bodyRows pen s) : r.StandsBeside pen s.lanes := by
  have hplain : ∀ kind : RowKind, kind.isBody = false → kind.number = none →
      kind.borderGlyph pen.glyphs = pen.glyphs.vertical → ∀ text,
      Row.StandsBeside pen s.lanes { kind := kind, gutter := pen.gutter none, text := text } := by
    intro kind hbody hnumber hborder text
    refine ⟨⟨some pen.settings.theme.sourceBorder, ?_⟩, fun h => ?_, fun c hc => by cases hc⟩
    · rw [hnumber, hborder]
      rfl
    · rw [hbody] at h
      cases h
  have hborder : ∀ r ∈ (if pen.settings.compact then [] else [pen.borderRow]),
      r.StandsBeside pen s.lanes := by
    intro r hr
    split at hr
    · cases hr
    · rw [List.mem_singleton.1 hr]
      exact hplain .border rfl rfl rfl []
  unfold bodyRows at hr
  dsimp only at hr
  split at hr
  · rcases List.mem_append.1 hr with hr | hr
    · exact hborder r hr
    · rw [List.mem_singleton.1 hr]
      exact hplain .unavailable rfl rfl rfl _
  · split at hr
    · cases hr
    · rw [List.mem_append, List.mem_append, List.mem_flatMap] at hr
      rcases hr with (hr | ⟨e, -, hr⟩) | hr
      · exact hborder r hr
      · cases e with
        | line line => exact standsBeside_of_mem_lineRows pen s hr
        | skipped first count =>
          rw [List.mem_singleton.1 hr]
          refine ⟨⟨_, rfl⟩, fun _ => length_betweenMargin pen s _ [], fun c hc => ?_⟩
          exact (draws_betweenMargin pen s (by simp [Glyphs.inCells]) _ [] hc).isDrawn
      · exact hborder r hr

end Snippet

/-! ## What is written of these rows -/

/-- A row with its gutter aligned to a width: the number stands on the right of so many columns, and
the border in the next column but one. -/
structure Row.GutterAligns (glyphs : Glyphs) (width : Nat) (r : Row) : Prop where
  number : ∀ n ∈ r.kind.number, (Text.ofNat n).length ≤ width ∧
    (Text.ofNat n).padStart width <+: r.written
  border : r.written.Occupies [r.kind.borderGlyph glyphs] (width + 1) (width + 2)

/-- A glyph takes one column. -/
theorem Pen.hasWidth_singleton (pen : Pen) {glyph : CodePoint} (h : glyph ∈ pen.glyphs.inCells) :
    Text.HasWidth [glyph] 1 :=
  Text.IsMonospaced.hasWidth fun c hc => by
    rw [List.mem_singleton.1 hc]
    exact (pen.isSingle_of_mem h).cells_eq

namespace Row.StandsBeside

variable {pen : Pen} {lanes : Lanes} {r : Row} (h : r.StandsBeside pen lanes)
  (hfits : pen.Fits r.kind.number)

include h hfits

theorem exists_runsText_gutter_eq : ∃ field, runsText r.gutter =
      field ++ " " ++ [r.kind.borderGlyph pen.glyphs] ++ " " ∧
    field = pen.numberText r.kind.number ∧ field.HasWidth pen.digits := by
  obtain ⟨style, hgutter⟩ := h.gutter
  refine ⟨_, ?_, rfl, ?_⟩
  · rw [hgutter]
    unfold Pen.gutterWith Pen.numberText
    cases r.kind.number <;> simp [runsText]
  · have hwidth := (pen.isMonospaced_numberText r.kind.number).hasWidth
    rwa [pen.length_numberText hfits] at hwidth

/-- **The gutter of such a row** is aligned. -/
theorem gutterAligns : r.GutterAligns pen.glyphs pen.digits := by
  obtain ⟨field, hgutter, hfield, hwidth⟩ := h.exists_runsText_gutter_eq hfits
  have hborder := pen.isSingle_of_mem (RowKind.borderGlyph_mem pen.glyphs r.kind)
  -- The border is no blank, so nothing in front of it is cut off.
  obtain ⟨rest, hrest⟩ : ∃ rest, r.written =
      field ++ " " ++ [r.kind.borderGlyph pen.glyphs] ++ rest := by
    rw [Row.written_eq, Row.lead, hgutter]
    simp only [List.append_assoc (field ++ (" " : Text) ++ [r.kind.borderGlyph pen.glyphs])]
    exact ⟨_, Text.trimEnd_visible_append hborder.not_blank _ _⟩
  refine ⟨fun n hn => ⟨hfits n hn, ?_⟩, ?_⟩
  · rw [hrest, hfield, Option.mem_def.1 hn, Pen.numberText]
    simp only [List.append_assoc]
    exact List.prefix_append _ _
  · exact Text.occupies_of_hasWidth hrest (hwidth.append (Text.hasWidth_spaces 1))
      (pen.hasWidth_singleton (RowKind.borderGlyph_mem pen.glyphs r.kind))

/-- **What such a row shows of a snippet** starts behind its gutter and its margin. -/
theorem hasWidth_lead (hbody : r.kind.isBody = true) : r.lead.HasWidth (pen.leadWidth lanes) := by
  obtain ⟨field, hgutter, -, hwidth⟩ := h.exists_runsText_gutter_eq hfits
  have hborder := pen.hasWidth_singleton (RowKind.borderGlyph_mem pen.glyphs r.kind)
  have hmargin := (Pen.isMonospaced_cells h.margin).hasWidth
  rw [List.length_map, h.size hbody] at hmargin
  rw [Row.lead, hgutter]
  exact (((hwidth.append (Text.hasWidth_spaces 1)).append hborder).append
    (Text.hasWidth_spaces 1)).append hmargin

end Row.StandsBeside

/-! ## The largest number -/

theorem foldl_max_le_iff {xs : List Nat} {n bound : Nat} :
    xs.foldl max n ≤ bound ↔ n ≤ bound ∧ ∀ x ∈ xs, x ≤ bound := by
  induction xs generalizing n with
  | nil => simp
  | cons x xs ih =>
    rw [List.foldl_cons, ih, Nat.max_le, List.forall_mem_cons, and_assoc]

namespace Report

/-- The line numbers that a report prints. -/
def numbers (r : Report) : List Nat := r.rows.filterMap (·.kind.number)

/-- The number of digits of the largest one; 1 if there is none. -/
def numberWidth (r : Report) : Nat := (Text.ofNat (r.numbers.max?.getD 1)).length

theorem length_ofNat_le_numberWidth {r : Report} {n : Nat} (h : n ∈ r.numbers) :
    (Text.ofNat n).length ≤ r.numberWidth :=
  Text.length_ofNat_mono (List.le_max?_getD_of_mem h)

theorem numberWidth_pos (r : Report) : 1 ≤ r.numberWidth := by
  rw [numberWidth, Text.length_ofNat]
  exact Nat.length_toDigits_pos

variable (settings : Settings) (registry : Registry) (d : Diagnostic) {file : SourceId}
  {line : Nat}

variable {settings registry d} in
/-- The lines that a window has are those that are printed. -/
theorem exists_source_body_iff :
    (∃ r ∈ body settings registry d file, r.kind = .source line) ↔
      .line line ∈ (Snippet.ofFile settings registry d file).window := by
  unfold body
  cases hs : registry.source? file with
  | none =>
    have hsource : (Snippet.ofFile settings registry d file).source = none := by
      simp only [Snippet.ofFile, hs]
    have hwindow : (Snippet.ofFile settings registry d file).window = [] := by
      simp only [Snippet.ofFile, hs]
    rw [hwindow]
    refine iff_of_false ?_ List.not_mem_nil
    rintro ⟨r, hr, hkind⟩
    rcases Snippet.kind_of_mem_bodyRows_of_none hsource hr with hk | hk <;>
      rw [hkind] at hk <;> cases hk
  | some s =>
    have hsource : (Snippet.ofFile settings registry d file).source = some s :=
      Snippet.source_ofFile hs
    by_cases hne : (Snippet.ofFile settings registry d file).labels = []
    · -- Nothing is shown of a source without labels, and its window is empty.
      have hwindow : (Snippet.ofFile settings registry d file).window = [] := by
        rw [Snippet.labels_ofFile hs] at hne
        rw [Snippet.window_ofFile hs, hne]
        simp [visibleLines, Window.ofLines]
      rw [hwindow]
      simp [Snippet.bodyRows, hsource, hne]
    · have hborders : ¬ ∃ r ∈ (pen settings registry d).borders, r.kind = .source line :=
        Pen.not_exists_borders RowKind.noConfusion
      rw [Snippet.bodyRows_eq hsource hne, exists_mem_append_iff, or_iff_left hborders,
        exists_mem_append_iff, or_iff_right hborders]
      exact (Snippet.isLaidOut_ofFile settings d hs).exists_source_iff

theorem mem_numbers_iff (hrich : settings.detail = .rich) {n : Nat} :
    n ∈ (ofDiagnostic settings registry d).numbers ↔ ∃ file ∈ d.files, ∃ line,
      .line line ∈ (Snippet.ofFile settings registry d file).window ∧ n = line + 1 := by
  unfold numbers
  rw [List.mem_filterMap, rows_ofDiagnostic settings hrich, allRows_eq]
  constructor
  · rintro ⟨r, hr, hnumber⟩
    obtain ⟨line, hkind, rfl⟩ : ∃ line, r.kind = .source line ∧ n = line + 1 := by
      unfold RowKind.number at hnumber
      split at hnumber
      · next line hkind => exact ⟨line, hkind, (Option.some.inj hnumber).symm⟩
      · cases hnumber
    simp only [List.mem_append, List.mem_flatMap] at hr
    rcases hr with (hr | ⟨e, he, hr⟩) | hr
    · obtain ⟨part, hk⟩ := exists_kind_headerRows hr
      rw [hkind] at hk
      cases hk
    · rcases List.mem_cons.1 hr with rfl | hr
      · cases hkind
      · exact ⟨e.1, List.fst_mem_of_mem_zipIdx he, line, exists_source_body_iff.1 ⟨r, hr, hkind⟩,
          rfl⟩
    · obtain ⟨index, part, hk⟩ := exists_kind_noteRows hr
      rw [hkind] at hk
      cases hk
  · rintro ⟨file, hfile, line, hline, rfl⟩
    obtain ⟨r, hr, hkind⟩ := exists_source_body_iff.2 hline
    obtain ⟨i, hi⟩ := List.getElem?_of_mem hfile
    refine ⟨r, ?_, by rw [hkind]; rfl⟩
    simp only [List.mem_append, List.mem_flatMap]
    exact Or.inl (Or.inr ⟨(file, i), List.mem_zipIdx_iff_getElem?.2 hi,
      List.mem_cons_of_mem _ hr⟩)

/-- **The gutter has room** for the line numbers that are printed, and for no more. -/
theorem numberWidth_eq (hrich : settings.detail = .rich) :
    (ofDiagnostic settings registry d).numberWidth = (pen settings registry d).digits := by
  refine Nat.le_antisymm ?_ ?_
  · unfold numberWidth
    cases hmax : (ofDiagnostic settings registry d).numbers.max? with
    | none => exact (foldl_max_le_iff.1 (Nat.le_refl _)).1
    | some n =>
      obtain ⟨file, hfile, line, hline, rfl⟩ :=
        (mem_numbers_iff settings registry d hrich).1 (List.max?_mem hmax)
      exact length_ofNat_le_digits (List.mem_map.2 ⟨file, hfile, rfl⟩) hline
  · refine foldl_max_le_iff.2 ⟨numberWidth_pos _, fun x hx => ?_⟩
    obtain ⟨s, hs, rfl⟩ := List.mem_map.1 hx
    obtain ⟨file, hfile, rfl⟩ := List.mem_map.1 hs
    unfold Snippet.lastNumber
    cases hlast : (Snippet.ofFile settings registry d file).window.lastLine? with
    | none => exact numberWidth_pos _
    | some last =>
      obtain ⟨e, he, hline⟩ := List.mem_filterMap.1 (List.max?_mem hlast)
      obtain rfl : e = .line last := by
        cases e with
        | line index => rw [Option.some.inj hline]
        | skipped first count => cases hline
      exact length_ofNat_le_numberWidth
        ((mem_numbers_iff settings registry d hrich).2 ⟨file, hfile, last, he, rfl⟩)

/-! ## Reports -/

/-- The first row of a note has its bullet behind so many blanks. -/
theorem occupies_of_mem_noteRows {pen : Pen} {column : Nat} {notes : List Text} {r : Row} {i : Nat}
    (hr : r ∈ noteRows pen column notes) (hkind : r.kind = .note i 0) :
    r.written.Occupies pen.glyphs.bullet column (column + 1) := by
  have hbullet : pen.glyphs.bullet = [('=' : CodePoint)] := by
    unfold Pen.glyphs
    cases pen.settings.charSet <;> rfl
  obtain ⟨⟨note, index⟩, -, hr⟩ := List.mem_flatMap.1 hr
  unfold noteRowsOf at hr
  dsimp only at hr
  split at hr
  · cases hr
  · next row more _ =>
    rcases List.mem_cons.1 hr with rfl | hr
    · have hwidth : Text.HasWidth [('=' : CodePoint)] 1 :=
        Text.IsMonospaced.hasWidth fun c hc => by
          rw [List.mem_singleton.1 hc]
          exact CodePoint.cells_of_lt (by decide) (by decide)
      rw [hbullet]
      refine Text.occupies_of_hasWidth (?_ : _ = _ ++ _ ++ (noteWord ++ row).trimEnd)
        (Text.hasWidth_spaces column) hwidth
      rw [Row.written_eq, ← Text.trimEnd_visible_append (by decide)]
      simp [Row.lead, runsText]
    · obtain ⟨n, hn, rfl⟩ := List.mem_mapIdx.1 hr
      injection hkind with _ hzero
      cases hzero

/-- **The rows for a source** have aligned gutters, and what they show of the source starts in one
column. -/
theorem gutterAligns_of_mem_body (hfile : file ∈ d.files) {r : Row}
    (hr : r ∈ body settings registry d file) :
    r.GutterAligns settings.charSet.glyphs (pen settings registry d).digits ∧
      (r.kind.isBody = true → r.lead.HasWidth ((pen settings registry d).leadWidth
        (Snippet.ofFile settings registry d file).lanes)) := by
  have hbeside := Snippet.standsBeside_of_mem_bodyRows _ _ hr
  have hfits : (pen settings registry d).Fits r.kind.number := by
    intro n hn
    unfold RowKind.number at hn
    split at hn
    · next line hkind =>
      rw [← Option.some.inj hn]
      exact length_ofNat_le_digits (List.mem_map.2 ⟨file, hfile, rfl⟩)
        (exists_source_body_iff.1 ⟨r, hr, hkind⟩)
    · cases hn
  exact ⟨hbeside.gutterAligns hfits, hbeside.hasWidth_lead hfits⟩

/-- A body shows its entries, or that the source is missing. -/
theorem kind_of_mem_body_cases {r : Row} (hr : r ∈ body settings registry d file) :
    r.kind = .border ∨ r.kind = .unavailable ∨ r.kind.isBody = true := by
  cases hs : registry.source? file with
  | none =>
    have hsource : (Snippet.ofFile settings registry d file).source = none := by
      simp only [Snippet.ofFile, hs]
    exact (Snippet.kind_of_mem_bodyRows_of_none hsource hr).imp_right Or.inl
  | some s =>
    exact ((Snippet.isLaidOut_ofFile settings d hs).kind_of_mem_bodyRows
      (Snippet.source_ofFile hs) hr).imp_right Or.inr

/-- **Gutters are aligned.** In a rich report the line numbers stand on the right of as many columns
as the largest of them has digits. The border of every row beside a snippet stands in the next
column but one, and so do the bullets of notes. What the rows for one source show of it starts in
one column. -/
theorem gutters_align (hrich : settings.detail = .rich) :
    (∀ file ∈ d.files,
      body settings registry d file <:+: (ofDiagnostic settings registry d).rows ∧
      ∃ start, ∀ r ∈ body settings registry d file,
        r.GutterAligns settings.charSet.glyphs (ofDiagnostic settings registry d).numberWidth ∧
        (r.kind.isBody = true → r.lead.HasWidth start ∧
          r.written = (r.lead ++ (r.cells.map (·.glyph) ++ runsText r.text)).trimEnd)) ∧
    ∀ r ∈ (ofDiagnostic settings registry d).rows, ∀ i, r.kind = .note i 0 →
      r.written.Occupies settings.charSet.glyphs.bullet
        ((ofDiagnostic settings registry d).numberWidth + 1)
        ((ofDiagnostic settings registry d).numberWidth + 2) := by
  rw [numberWidth_eq settings registry d hrich]
  refine ⟨fun file hfile => ⟨?_, (pen settings registry d).leadWidth
    (Snippet.ofFile settings registry d file).lanes, fun r hr => ?_⟩, fun r hr i hkind => ?_⟩
  · obtain ⟨above, below, heq, -⟩ := exists_rows_eq registry hrich hfile
    exact ⟨above, below, heq.symm⟩
  · obtain ⟨hgutter, hlead⟩ := gutterAligns_of_mem_body settings registry d hfile hr
    exact ⟨hgutter, fun hbody => ⟨hlead hbody, by rw [Row.written_eq, List.append_assoc]⟩⟩
  · have hnote : r ∈ noteRows (pen settings registry d) ((pen settings registry d).digits + 1)
        d.notes := by
      rw [rows_ofDiagnostic settings hrich, allRows_eq] at hr
      simp only [List.mem_append, List.mem_flatMap] at hr
      rcases hr with (hr | ⟨e, -, hr⟩) | hr
      · obtain ⟨part, hk⟩ := exists_kind_headerRows hr
        rw [hkind] at hk
        cases hk
      · rcases List.mem_cons.1 hr with rfl | hr
        · cases hkind
        · rcases kind_of_mem_body_cases settings registry d hr with hk | hk | hk <;>
            rw [hkind] at hk <;> cases hk
      · exact hr
    exact occupies_of_mem_noteRows hnote hkind

/-- Labels in the first and in the tenth line: the number of the first line has one digit, and
stands in the second of two columns. -/
theorem gutters_align_ten :
    let s : Source := ⟨.snippet "a", "a\nb\nc\nd\ne\nf\ng\nh\ni\nj\n", by decide, ⟨1⟩, false⟩
    let top : Label := { span := ⟨⟨1⟩, 0, 1, by decide, by decide⟩ }
    let bottom : Label := { span := ⟨⟨1⟩, 18, 19, by decide, by decide⟩ }
    let d : Diagnostic := { level := .error, labels := [top, bottom] }
    let registry : Registry := ⟨[⟨s, s.name, none⟩]⟩
    ({} : Settings).detail = .rich ∧ (ofDiagnostic {} registry d).numberWidth = 2 ∧
      ∃ r ∈ body {} registry d ⟨1⟩, r.kind = .source 0 ∧ (" 1" : Text) <+: r.written ∧
        r.written.Occupies [Glyphs.unicode.vertical] 3 4 := by
  intro s top bottom d registry
  have hfile : (⟨1⟩ : SourceId) ∈ d.files := by decide
  have hwidth : (ofDiagnostic {} registry d).numberWidth = 2 := by
    rw [numberWidth_eq _ _ _ rfl]
    decide +kernel
  have hline : WindowEntry.line 0 ∈ (Snippet.ofFile {} registry d ⟨1⟩).window := by decide +kernel
  obtain ⟨r, hr, hkind⟩ := exists_source_body_iff.2 hline
  obtain ⟨-, start, hrows⟩ := (gutters_align {} registry d rfl).1 ⟨1⟩ hfile
  obtain ⟨hgutter, -⟩ := hrows r hr
  rw [hwidth] at hgutter
  have hborder := hgutter.border
  rw [hkind] at hborder
  exact ⟨rfl, hwidth, r, hr, hkind, (hgutter.number 1 (by rw [hkind]; rfl)).2, hborder⟩

end Report

end SourceReport
