import SourceReport.Proofs.Report.Snippet
import SourceReport.Proofs.Report.Underline
import SourceReport.Report.Basic

/-!
# Carets under the characters

In a rich report every source line with labels of one line is followed by the row of their
underlines. Both rows start in the same column, and from there on a character takes the columns of
what precedes it in its line, so that the underlines stand below the characters of their labels.

* `Row.CaretsAlign` is what a source line and the row of underlines below it have in common.
* `Row.HangFrom` says that rows of underlines stand below rows of a certain kind only.

Results:
* `Snippet.occupies_sourceRow`: where a character of the content is printed.
* `Snippet.lineRows_eq_of_marks`: the rows of a line with labels of one line.
* `Report.carets_align`: all of this in every rich report.
-/

namespace SourceReport

/-- The cells of a label below its line. -/
def Placement.underlined (settings : Settings) (raw : Text) (p : Placement) : CellRange :=
  .ofPlacement (.ofLine settings.tabWidth raw) settings.attach p

/-! ## Alignment -/

/-- A source line and the row of underlines below it, which both start in a column. -/
structure Row.CaretsAlign (settings : Settings) (raw : Text) (labels : List Placement)
    (source underline : Row) (start : Nat) : Prop where
  /-- Gutter and margin of the source line end in that column. -/
  lead_source : source.lead.HasWidth start
  /-- So do those of the row below. -/
  lead_underline : underline.lead.HasWidth start
  /-- Each character of the content is printed behind the columns of what precedes it. -/
  printed : ∀ (before : Text) c after, raw.trimEnd = before ++ c :: after →
    let column := before.cells settings.tabWidth
    source.written.Occupies (c.shown (c.cells settings.tabWidth column)) (start + column)
      (start + Text.cells settings.tabWidth (before ++ [c]))
  /-- The columns underlined are those of the labels. -/
  underlined : ∀ column, underline.IsUnderlinedAt settings.charSet.glyphs (start + column) ↔
    ∃ p ∈ labels, (p.underlined settings raw).start ≤ column ∧
      column < (p.underlined settings raw).stop
  /-- A label between two characters of the content takes the columns between them, or one. -/
  between : ∀ p ∈ labels, ∀ a b : Text, a <+: raw.trimEnd → b <+: raw.trimEnd →
    p.startColumn = a.utf8Length → p.stopColumn = b.utf8Length →
    (p.underlined settings raw).start = a.cells settings.tabWidth ∧
      (p.underlined settings raw).stop =
        max (b.cells settings.tabWidth) (a.cells settings.tabWidth + 1)

/-- A source line with the labels of a diagnostic in it, and the row of their underlines. -/
structure Report.CaretsAlign (settings : Settings) (d : Diagnostic) (file : SourceId) (s : Source)
    (line : Nat) (source underline : Row) : Prop where
  kind_source : source.kind = .source line
  kind_underline : underline.kind = .underline line
  labelled : d.labelsOn file s line ≠ []
  aligned : ∃ l, s.lines[line]? = some l ∧ ∃ start,
    Row.CaretsAlign settings l.raw (d.labelsOn file s line) source underline start

/-! ## The rows of a line -/

namespace Snippet

variable (pen : Pen) (s : Snippet)

/-- The row of underlines below a line. -/
def underlineRow (line : Nat) (pending : List Placement) (marks : Marks) : Row where
  kind := .underline line
  gutter := pen.gutter none
  margin := betweenMargin pen s pen.glyphs.vertical line pending
  cells := Marks.underline pen marks

theorem isLed_sourceRow {line : Nat} (h : (Text.ofNat (line + 1)).length ≤ pen.digits)
    (display : DisplayLine) : (sourceRow pen s line display).IsLed pen s.lanes where
  gutter := ⟨some (line + 1), rfl, fun n hn => by rwa [← Option.some.inj hn]⟩
  margin := fun _ hc => (draws_sourceMargin pen s line hc).isDrawn
  size := by rw [sourceRow, sourceMargin, List.length_map, List.length_range]

theorem isLed_underlineRow (line : Nat) (pending : List Placement) (marks : Marks) :
    (underlineRow pen s line pending marks).IsLed pen s.lanes where
  gutter := ⟨none, rfl, fun n hn => by cases hn⟩
  margin := fun _ hc =>
    (draws_betweenMargin pen s (by simp [Glyphs.inCells]) line pending hc).isDrawn
  size := by rw [underlineRow, betweenMargin, List.length_map, List.length_range]

/-- A source line is written with its content behind the gutter and the margin. -/
theorem written_sourceRow (line : Nat) {raw : Text} (h : raw.trimEnd ≠ []) :
    (sourceRow pen s line (.ofLine pen.settings.tabWidth raw)).written =
      (sourceRow pen s line (.ofLine pen.settings.tabWidth raw)).lead ++
        raw.trimEnd.shownFrom pen.settings.tabWidth 0 := by
  obtain ⟨a, c, hac, hc⟩ := Text.exists_shownFrom_eq_append h pen.settings.tabWidth 0
  have htext : runsText (sourceRow pen s line (.ofLine pen.settings.tabWidth raw)).text =
      a ++ [c] := by
    rw [sourceRow, runsText_cons, DisplayLine.text_ofLine, hac]
    exact List.append_nil _
  have hcells : (sourceRow pen s line (.ofLine pen.settings.tabWidth raw)).cells = [] := rfl
  rw [Row.written_eq, htext, hcells, List.map_nil, List.append_nil, hac, ← List.append_assoc]
  exact Text.trimEnd_append_singleton hc _

/-- **Where a character of the content is printed**: behind the columns of what precedes it. -/
theorem occupies_sourceRow {line : Nat} (hfits : (Text.ofNat (line + 1)).length ≤ pen.digits)
    {raw before after : Text} {c : CodePoint} (h : raw.trimEnd = before ++ c :: after) :
    (sourceRow pen s line (.ofLine pen.settings.tabWidth raw)).written.Occupies
      (c.shown (c.cells pen.settings.tabWidth (before.cells pen.settings.tabWidth)))
      (pen.leadWidth s.lanes + before.cells pen.settings.tabWidth)
      (pen.leadWidth s.lanes + Text.cells pen.settings.tabWidth (before ++ [c])) := by
  have hne : raw.trimEnd ≠ [] := by simp [h]
  have hlead := (isLed_sourceRow pen s hfits (.ofLine pen.settings.tabWidth raw)).hasWidth_lead
  have hwritten := written_sourceRow pen s line hne
  rw [h, Text.shownFrom_append, Text.shownFrom, ← List.append_assoc, ← List.append_assoc]
    at hwritten
  have hend : Text.cells pen.settings.tabWidth (before ++ [c]) =
      before.cells pen.settings.tabWidth +
        c.cells pen.settings.tabWidth (before.cells pen.settings.tabWidth) := by
    rw [Text.cells, Text.columnAfter_append]
    rfl
  rw [hend, ← Nat.add_assoc]
  exact Text.occupies_of_hasWidth hwritten
    (hlead.append (Text.hasWidth_shown pen.settings.tabWidth before))
    (c.hasWidth_shown pen.settings.tabWidth _)

/-- **A source line and the row of underlines below it are aligned.** -/
theorem caretsAlign {line : Nat} (hfits : (Text.ofNat (line + 1)).length ≤ pen.digits) (raw : Text)
    (pending : List Placement) {labels : List Placement} (hne : labels ≠ [])
    (hempty : ∀ p ∈ labels, p.length = 0 → p.startColumn = p.stopColumn) :
    Row.CaretsAlign pen.settings raw labels
      (sourceRow pen s line (.ofLine pen.settings.tabWidth raw))
      (underlineRow pen s line pending
        (.ofLabels pen (.ofLine pen.settings.tabWidth raw) labels))
      (pen.leadWidth s.lanes) where
  lead_source := (isLed_sourceRow pen s hfits _).hasWidth_lead
  lead_underline := (isLed_underlineRow pen s line pending _).hasWidth_lead
  printed := fun _ _ _ h => occupies_sourceRow pen s hfits h
  underlined := by
    intro column
    have hmarks := Marks.isProper_ofLabels pen (.ofLine pen.settings.tabWidth raw) labels
    have hiff := (isLed_underlineRow pen s line pending _).isUnderlinedAt_iff hmarks
      (by simpa [Marks.ofLabels] using hne) rfl rfl column
    rw [Marks.covers_ofLabels_iff] at hiff
    exact hiff
  between := fun p hp _ _ ha hb hstart hstop =>
    CellRange.ofPlacement_prefix ha hb hstart hstop (hempty p hp)

end Snippet

/-! ## Where rows of underlines stand -/

theorem infix_flatMap {α β : Type} {xs : List α} {x : α} (h : x ∈ xs) (f : α → List β) :
    f x <:+: xs.flatMap f := by
  rw [List.flatMap_def]
  exact List.infix_of_mem_flatten (List.mem_map.2 ⟨x, h, rfl⟩)

namespace Row

variable {R : Row → Row → Prop} {rows more : List Row}

/-- Every row of underlines stands below a row to which it is related. -/
def HangFrom (R : Row → Row → Prop) (rows : List Row) : Prop :=
  ∀ above row below line, rows = above ++ row :: below → row.kind = .underline line →
    ∃ front source, above = front ++ [source] ∧ R source row

theorem hangFrom_of_forall_ne (h : ∀ r ∈ rows, ∀ line, r.kind ≠ .underline line) :
    HangFrom R rows := by
  intro above row below line hrows hkind
  exact absurd hkind (h row (by simp [hrows]) line)

theorem hangFrom_nil : HangFrom R [] := hangFrom_of_forall_ne fun r hr => by cases hr

theorem hangFrom_singleton {r : Row} (h : ∀ line, r.kind ≠ .underline line) : HangFrom R [r] :=
  hangFrom_of_forall_ne fun r' hr => by
    rw [List.mem_singleton.1 hr]
    exact h

theorem HangFrom.append (hrows : HangFrom R rows) (hmore : HangFrom R more) :
    HangFrom R (rows ++ more) := by
  intro above row below line happ hkind
  rcases List.append_eq_append_iff.1 happ with ⟨rest, rfl, hrest⟩ | ⟨rest, rfl, hrest⟩
  · obtain ⟨front, source, rfl, hR⟩ := hmore rest row below line hrest hkind
    exact ⟨rows ++ front, source, (List.append_assoc rows front [source]).symm, hR⟩
  · cases rest with
    | nil =>
      -- The row would be the first one of `more`, with no row above it.
      obtain ⟨front, _, hnil, _⟩ := hmore [] row below line hrest.symm hkind
      exact absurd hnil.symm (List.append_ne_nil_of_right_ne_nil front (List.cons_ne_nil _ _))
    | cons first rest =>
      obtain ⟨rfl, _⟩ := List.cons.inj hrest
      exact hrows above row rest line rfl hkind

theorem HangFrom.flatMap {α : Type} {xs : List α} {f : α → List Row}
    (h : ∀ x ∈ xs, HangFrom R (f x)) : HangFrom R (xs.flatMap f) := by
  induction xs with
  | nil => exact hangFrom_nil
  | cons x xs ih =>
    exact (h x List.mem_cons_self).append (ih fun y hy => h y (List.mem_cons_of_mem x hy))

/-- A row of underlines below a row to which it is related, and no other one. -/
theorem hangFrom_pair {source underline : Row} {line : Nat} (hsource : source.kind = .source line)
    (hR : R source underline) (hrest : ∀ r ∈ rows, ∀ line, r.kind ≠ .underline line) :
    HangFrom R (source :: underline :: rows) := by
  intro above row below line' hrows hkind
  rcases above with _ | ⟨first, _ | ⟨second, above⟩⟩
  · obtain ⟨rfl, _⟩ := List.cons.inj hrows
    rw [hsource] at hkind
    cases hkind
  · obtain ⟨rfl, htail⟩ := List.cons.inj hrows
    obtain ⟨rfl, _⟩ := List.cons.inj htail
    exact ⟨[], source, rfl, hR⟩
  · obtain ⟨_, htail⟩ := List.cons.inj hrows
    obtain ⟨_, rfl⟩ := List.cons.inj htail
    exact absurd hkind (hrest row (by simp) line')

end Row

/-! ## Kinds of rows -/

namespace Snippet

variable (pen : Pen) (s : Snippet)

theorem kind_messageRows {p : Placement} {margin margins cells cellsBelow : List Cell} {lead : Text}
    {r : Row} (h : r ∈ messageRows pen p margin margins cells cellsBelow lead) (line : Nat) :
    r.kind ≠ .underline line := by
  obtain ⟨n, hn, rfl⟩ := List.mem_mapIdx.1 h
  exact RowKind.noConfusion

theorem kind_markMessages {margin : List Cell} {column : Nat} {marks : Marks} {r : Row}
    (h : r ∈ markMessages pen margin column marks) (line : Nat) : r.kind ≠ .underline line := by
  induction marks with
  | nil => cases h
  | cons m later ih =>
    rcases List.mem_append.1 h with h | h
    · exact kind_messageRows pen h line
    · exact ih h

theorem kind_endingMessages {here : Nat} {endings : Lanes} {r : Row}
    (h : r ∈ endingMessages pen s here endings) (line : Nat) : r.kind ≠ .underline line := by
  induction endings with
  | nil => cases h
  | cons e later ih =>
    rcases List.mem_append.1 h with h | h
    · exact kind_messageRows pen h line
    · exact ih h

/-- **The rows of a line with labels of one line**: the line, their underlines and messages, and
the messages of the labels of several lines that end there. -/
theorem lineRows_eq_of_marks (source : Source) {line : Nat} {l : Line}
    (hl : source.lines[line]? = some l) (hne : s.labelsOn line ≠ []) :
    let marks := Marks.ofLabels pen (.ofLine pen.settings.tabWidth l.raw) (s.labelsOn line)
    let pending := (s.endings line).map (·.1)
    lineRows pen s source line =
      sourceRow pen s line (.ofLine pen.settings.tabWidth l.raw) ::
        underlineRow pen s line pending marks ::
          (markMessages pen (betweenMargin pen s pen.glyphs.vertical line pending)
              marks.withMessages.messageColumn marks.withMessages ++
            endingMessages pen s line (s.endings line)) := by
  have hraw : (source.lines[line]?.map (·.raw)).getD [] = l.raw := by rw [hl]; rfl
  have hmarks : (marksOn pen s line (.ofLine pen.settings.tabWidth l.raw)).isEmpty = false := by
    rw [marksOn, Marks.ofLabels, List.isEmpty_map]
    exact List.isEmpty_eq_false_iff.2 hne
  unfold lineRows markRows
  dsimp only
  rw [hraw, hmarks]
  rfl

/-- They start with the line and its underlines. -/
theorem lineRows_eq (source : Source) {line : Nat} {l : Line} (hl : source.lines[line]? = some l)
    (hne : s.labelsOn line ≠ []) :
    ∃ pending rest, lineRows pen s source line =
        sourceRow pen s line (.ofLine pen.settings.tabWidth l.raw) ::
          underlineRow pen s line pending (.ofLabels pen (.ofLine pen.settings.tabWidth l.raw)
            (s.labelsOn line)) :: rest ∧
      ∀ r ∈ rest, ∀ line, r.kind ≠ .underline line := by
  refine ⟨_, _, lineRows_eq_of_marks pen s source hl hne, fun r hr => ?_⟩
  rcases List.mem_append.1 hr with hr | hr
  · exact kind_markMessages pen hr
  · exact kind_endingMessages pen s hr

/-- A line without labels of one line has no underlines. -/
theorem kind_lineRows (source : Source) {line : Nat}
    (hnil : s.labelsOn line = []) {r : Row} (hr : r ∈ lineRows pen s source line) (line' : Nat) :
    r.kind ≠ .underline line' := by
  have hmarks (display : DisplayLine) : (marksOn pen s line display).isEmpty = true := by
    rw [labelsOn] at hnil
    rw [marksOn, hnil]
    rfl
  unfold lineRows markRows at hr
  dsimp only at hr
  rw [hmarks, if_pos rfl] at hr
  rcases List.mem_append.1 hr with hr | hr
  · rw [List.mem_singleton.1 hr]
    exact RowKind.noConfusion
  · exact kind_endingMessages pen s hr line'

end Snippet

/-! ## Reports -/

namespace Report

section Lines

/-- The gutter has room for every line number. -/
theorem length_ofNat_le_digits {snippets : List Snippet} {s : Snippet} (hs : s ∈ snippets)
    {line : Nat} (h : .line line ∈ s.window) :
    (Text.ofNat (line + 1)).length ≤ digits snippets := by
  have hlast : (Text.ofNat (line + 1)).length ≤ (Text.ofNat s.lastNumber).length :=
    Text.length_ofNat_mono (Snippet.lt_lastNumber h)
  exact Nat.le_trans hlast (le_foldl_max (List.mem_map.2 ⟨s, hs, rfl⟩))

variable (settings : Settings) (registry : Registry) (d : Diagnostic)

/-- What the snippets of a diagnostic are drawn with. -/
def pen : Pen :=
  ⟨settings, labelStyles settings d, digits (Snippet.ofDiagnostic settings registry d)⟩

variable {registry d} {file : SourceId} {s : Source} {line : Nat}

/-- **A line with labels of one line** is followed by the underlines of these. -/
theorem exists_lineRows (hs : registry.source? file = some s) (h : d.labelsOn file s line ≠ []) :
    ∃ source underline rest,
      Snippet.lineRows (pen settings registry d) (.ofFile settings registry d file) s line =
        source :: underline :: rest ∧
      CaretsAlign settings d file s line source underline ∧
      ∀ r ∈ rest, ∀ line, r.kind ≠ .underline line := by
  obtain ⟨l, hl⟩ := Diagnostic.exists_line h
  have hlabels := Snippet.labelsOn_ofFile settings d hs line
  obtain ⟨pending, rest, heq, hrest⟩ := Snippet.lineRows_eq (pen settings registry d)
    (.ofFile settings registry d file) s hl (hlabels ▸ h)
  rw [hlabels] at heq
  have hmem : Snippet.ofFile settings registry d file ∈
      Snippet.ofDiagnostic settings registry d :=
    List.mem_map.2 ⟨file, Diagnostic.mem_files_of_labelsOn h, rfl⟩
  have hfits : (Text.ofNat (line + 1)).length ≤ (pen settings registry d).digits :=
    length_ofNat_le_digits hmem (Snippet.mem_window settings hs h)
  have hempty : ∀ p ∈ d.labelsOn file s line, p.length = 0 → p.startColumn = p.stopColumn := by
    intro p hp
    obtain ⟨index, label, rfl⟩ := Diagnostic.exists_label_of_mem (List.mem_filter.1 hp).1
    exact Placement.columns_eq_of_length_eq_zero
  have haligned := Snippet.caretsAlign (pen settings registry d)
    (.ofFile settings registry d file) hfits l.raw pending h hempty
  exact ⟨_, _, rest, heq, ⟨rfl, rfl, h, l, hl, _, haligned⟩, hrest⟩

/-- A row of underlines is aligned with a row for some line of some source. -/
def Hangs (settings : Settings) (registry : Registry) (d : Diagnostic) (source underline : Row) :
    Prop :=
  ∃ file s line, registry.source? file = some s ∧
    CaretsAlign settings d file s line source underline

theorem hangFrom_lineRows (hs : registry.source? file = some s) :
    Row.HangFrom (Hangs settings registry d)
      (Snippet.lineRows (pen settings registry d) (.ofFile settings registry d file) s line) := by
  by_cases h : d.labelsOn file s line = []
  · refine Row.hangFrom_of_forall_ne fun r hr => ?_
    refine Snippet.kind_lineRows _ _ s ?_ hr
    rw [Snippet.labelsOn_ofFile settings d hs, h]
  · obtain ⟨source, underline, rest, heq, halign, hrest⟩ := exists_lineRows settings hs h
    rw [heq]
    exact Row.hangFrom_pair halign.kind_source ⟨file, s, line, hs, halign⟩ hrest

theorem hangFrom_bodyRows (file : SourceId) :
    Row.HangFrom (Hangs settings registry d)
      (Snippet.bodyRows (pen settings registry d) (.ofFile settings registry d file)) := by
  have hborder : Row.HangFrom (Hangs settings registry d)
      (if (pen settings registry d).settings.compact then []
        else [(pen settings registry d).borderRow]) := by
    split
    · exact Row.hangFrom_nil
    · exact Row.hangFrom_singleton fun _ => RowKind.noConfusion
  unfold Snippet.bodyRows
  dsimp only
  split
  · exact hborder.append (Row.hangFrom_singleton fun _ => RowKind.noConfusion)
  · next s hsource =>
    split
    · exact Row.hangFrom_nil
    · have hs : registry.source? file = some s := by
        cases h : registry.source? file with
        | none => simp [Snippet.ofFile, h] at hsource
        | some s' => rw [← hsource, Snippet.source_ofFile h]
      refine (hborder.append (Row.HangFrom.flatMap fun entry _ => ?_)).append hborder
      cases entry with
      | line index => exact hangFrom_lineRows settings hs
      | skipped first count => exact Row.hangFrom_singleton fun _ => RowKind.noConfusion

theorem exists_kind_headerRows {theme : Theme} {lead : Text} {r : Row}
    (h : r ∈ headerRows theme lead d) : ∃ part, r.kind = .header part := by
  unfold headerRows at h
  dsimp only at h
  split at h
  · rw [List.mem_singleton.1 h]
    exact ⟨_, rfl⟩
  · rcases List.mem_cons.1 h with rfl | h
    · exact ⟨_, rfl⟩
    · obtain ⟨n, hn, rfl⟩ := List.mem_mapIdx.1 h
      exact ⟨_, rfl⟩

theorem kind_headerRows {theme : Theme} {lead : Text} {r : Row} (h : r ∈ headerRows theme lead d)
    (line : Nat) : r.kind ≠ .underline line := by
  obtain ⟨part, hpart⟩ := exists_kind_headerRows h
  rw [hpart]
  exact RowKind.noConfusion

theorem exists_kind_noteRows {pen : Pen} {column : Nat} {notes : List Text} {r : Row}
    (h : r ∈ noteRows pen column notes) : ∃ index part, r.kind = .note index part := by
  obtain ⟨⟨note, index⟩, _, hr⟩ := List.mem_flatMap.1 h
  unfold noteRowsOf at hr
  dsimp only at hr
  split at hr
  · cases hr
  · rcases List.mem_cons.1 hr with rfl | hr
    · exact ⟨_, _, rfl⟩
    · obtain ⟨n, hn, rfl⟩ := List.mem_mapIdx.1 hr
      exact ⟨_, _, rfl⟩

theorem kind_noteRows {pen : Pen} {column : Nat} {notes : List Text} {r : Row}
    (h : r ∈ noteRows pen column notes) (line : Nat) : r.kind ≠ .underline line := by
  obtain ⟨index, part, hpart⟩ := exists_kind_noteRows h
  rw [hpart]
  exact RowKind.noConfusion

theorem hangFrom_allRows :
    Row.HangFrom (Hangs settings registry d)
      (Snippet.allRows (pen settings registry d) (Snippet.ofDiagnostic settings registry d)) := by
  refine Row.HangFrom.flatMap fun e he => ?_
  obtain ⟨file, _, hfile⟩ := List.mem_map.1 (List.fst_mem_of_mem_zipIdx he)
  have hlocator : Row.HangFrom (Hangs settings registry d)
      [locatorRow (pen settings registry d) (e.2 = 0) e.1] :=
    Row.hangFrom_singleton fun _ => RowKind.noConfusion
  have hbody : Row.HangFrom (Hangs settings registry d)
      (Snippet.bodyRows (pen settings registry d) e.1) := by
    rw [← hfile]
    exact hangFrom_bodyRows settings file
  exact hlocator.append hbody

theorem lineRows_infix_bodyRows (hs : registry.source? file = some s)
    (h : d.labelsOn file s line ≠ []) :
    Snippet.lineRows (pen settings registry d) (.ofFile settings registry d file) s line <:+:
      Snippet.bodyRows (pen settings registry d) (.ofFile settings registry d file) := by
  have hlabels : (Snippet.ofFile settings registry d file).labels.isEmpty = false := by
    rw [Snippet.labels_ofFile hs, List.isEmpty_eq_false_iff]
    intro hnil
    rw [Diagnostic.labelsOn, hnil] at h
    exact h rfl
  unfold Snippet.bodyRows
  dsimp only
  rw [Snippet.source_ofFile hs, hlabels]
  have hentry := infix_flatMap (Snippet.mem_window settings hs h)
    (Snippet.entryRows (pen settings registry d) (.ofFile settings registry d file) s)
  exact (hentry.trans List.infix_append_right).trans List.infix_append_left

/-- The rows of a line are rows of the snippets. -/
theorem lineRows_infix_allRows (hs : registry.source? file = some s)
    (h : d.labelsOn file s line ≠ []) :
    Snippet.lineRows (pen settings registry d) (.ofFile settings registry d file) s line <:+:
      Snippet.allRows (pen settings registry d) (Snippet.ofDiagnostic settings registry d) := by
  have hmem : Snippet.ofFile settings registry d file ∈
      Snippet.ofDiagnostic settings registry d :=
    List.mem_map.2 ⟨file, Diagnostic.mem_files_of_labelsOn h, rfl⟩
  obtain ⟨n, hn⟩ := List.getElem?_of_mem hmem
  have hzip : (Snippet.ofFile settings registry d file, n) ∈
      (Snippet.ofDiagnostic settings registry d).zipIdx := List.mem_zipIdx_iff_getElem?.2 hn
  have hbody := lineRows_infix_bodyRows settings hs h
  exact (List.infix_cons hbody).trans
    (infix_flatMap hzip fun e => locatorRow (pen settings registry d) (e.2 = 0) e.1 ::
      Snippet.bodyRows (pen settings registry d) e.1)

theorem rows_ofDiagnostic (hrich : settings.detail = .rich) :
    (ofDiagnostic settings registry d).rows =
      headerRows settings.theme [] d ++
        Snippet.allRows (pen settings registry d) (Snippet.ofDiagnostic settings registry d) ++
        noteRows (pen settings registry d) ((pen settings registry d).digits + 1) d.notes := by
  simp only [ofDiagnostic, hrich, richRows, pen]

/-- The rows of a line with labels are rows of a rich report. -/
theorem lineRows_infix_rows (hrich : settings.detail = .rich) (hs : registry.source? file = some s)
    (h : d.labelsOn file s line ≠ []) :
    Snippet.lineRows (pen settings registry d) (.ofFile settings registry d file) s line <:+:
      (ofDiagnostic settings registry d).rows := by
  rw [rows_ofDiagnostic settings hrich]
  exact ((lineRows_infix_allRows settings hs h).trans List.infix_append_right).trans
    List.infix_append_left

end Lines

/-- **Carets stand below the characters of their labels.** In a rich report every line of a source
with labels of one line is followed by the row of their underlines, aligned with it, and no other
rows of underlines are there. -/
theorem carets_align (settings : Settings) (registry : Registry) (d : Diagnostic)
    (hrich : settings.detail = .rich) :
    (∀ file s line, registry.source? file = some s → d.labelsOn file s line ≠ [] →
      ∃ source underline, [source, underline] <:+: (ofDiagnostic settings registry d).rows ∧
        CaretsAlign settings d file s line source underline) ∧
    Row.HangFrom (Hangs settings registry d) (ofDiagnostic settings registry d).rows := by
  rw [rows_ofDiagnostic settings hrich]
  refine ⟨fun file s line hs h => ?_, ?_⟩
  · obtain ⟨source, underline, rest, heq, halign, _⟩ :=
      exists_lineRows settings hs h
    have hrows := lineRows_infix_allRows settings hs h
    rw [heq] at hrows
    have hpair : [source, underline] <:+: source :: underline :: rest := ⟨[], rest, rfl⟩
    exact ⟨source, underline, ((hpair.trans hrows).trans List.infix_append_right).trans
      List.infix_append_left, halign⟩
  · have hheader : Row.HangFrom (Hangs settings registry d) (headerRows settings.theme [] d) :=
      Row.hangFrom_of_forall_ne fun r hr => kind_headerRows hr
    have hnotes : Row.HangFrom (Hangs settings registry d)
        (noteRows (pen settings registry d) ((pen settings registry d).digits + 1) d.notes) :=
      Row.hangFrom_of_forall_ne fun r hr => kind_noteRows hr
    exact (hheader.append (hangFrom_allRows settings)).append hnotes

/-- A wide character behind a tab: it stands in two columns, and both are underlined. -/
theorem carets_align_tab :
    let s : Source := .ofEncodable (.snippet "a") "\ta世b\n" (by decide)
    let label : Label := { span := ⟨s.id, 2, 5, by decide, by decide⟩ }
    let d : Diagnostic := { level := .error, labels := [label] }
    ({} : Settings).detail = .rich ∧
      ∃ start source underline,
        [source, underline] <:+: (ofDiagnostic {} ⟨[⟨s, s.name, none⟩]⟩ d).rows ∧
        source.written.Occupies "世" (start + 5) (start + 7) ∧
        ∀ column, underline.IsUnderlinedAt Glyphs.unicode (start + column) ↔
          5 ≤ column ∧ column < 7 := by
  intro s label d
  have hs : (⟨[⟨s, s.name, none⟩]⟩ : Registry).source? s.id = some s := by
    simp [Registry.source?, Registry.find?]
  have hplace : (Placement.ofLabel s 0 label).isMultiline = false ∧
      (Placement.ofLabel s 0 label).firstLine = 0 := by decide +kernel
  have hlabels : d.labelsOn s.id s 0 = [.ofLabel s 0 label] := by
    simp [Diagnostic.labelsOn, Diagnostic.placements, Snippet.labelsOf, d, Label.file, label]
    exact hplace
  obtain ⟨source, underline, hpair, halign⟩ :=
    (carets_align {} ⟨[⟨s, s.name, none⟩]⟩ d rfl).1 s.id s 0 hs (by simp [hlabels])
  obtain ⟨l, hl, start, haligned⟩ := halign.aligned
  have hraw : l.raw = "\ta世b\n" := by
    have hline : (s.lines[0]?.map (·.raw)) = some ("\ta世b\n" : Text) := by decide +kernel
    rw [hl] at hline
    exact Option.some.inj hline
  refine ⟨rfl, start, source, underline, hpair, ?_, fun column => ?_⟩
  · have hprinted := haligned.printed "\ta" '世' "b" (by rw [hraw]; decide)
    have hbefore : Text.cells 4 "\ta" = 5 := by decide +kernel
    have hbehind : Text.cells 4 "\ta世" = 7 := by decide +kernel
    dsimp only at hprinted
    change source.written.Occupies "世" (start + Text.cells 4 "\ta") (start + Text.cells 4 "\ta世")
      at hprinted
    rwa [hbefore, hbehind] at hprinted
  · have hcolumns := haligned.underlined column
    have hrange : (Placement.ofLabel s 0 label).underlined {} "\ta世b\n" = ⟨5, 7, 6⟩ := by
      decide +kernel
    rw [hlabels, hraw] at hcolumns
    simp only [List.mem_singleton, exists_eq_left, hrange] at hcolumns
    exact hcolumns

end Report

end SourceReport
