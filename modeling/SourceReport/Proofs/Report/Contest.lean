import SourceReport.Proofs.Output.Sink
import SourceReport.Proofs.Report.Difference
import SourceReport.Proofs.Report.Owners
import SourceReport.Proofs.Report.Redraw

/-!
# Repairs and the report

A report is drawn from the placements of the labels, which repairs do not change. One decision looks
at the spans themselves: a cell that several labels cover belongs to the one of the highest priority
and then to the one with the shorter span, and a span that goes on behind the end of its source is
longer than what is left of it. So repairs may give such a cell to another label.

* `Placement.Contest` says that labels claim a cell in different ways before and after repairs.
* `Row.AgreesBut` relates rows that differ in certain cells at most.

Results:
* `Marks.ownerAt?_repaired`: a cell without a contest belongs to the same label.
* `Snippet.IsLaidOut.forall₂_bodyRows`: the rows of a snippet agree but for cells with a contest.
* `Report.repairs_agree`: so do reports, and nothing is left to repair.
* `Report.not_write_repaired`: a report whose text repairs change.
-/

namespace SourceReport

/-! ## Differences -/

/-- Two labels that cover a cell have the same priority, but their spans compare in another way than
what is left of them in the source. -/
def Placement.Contest (settings : Settings) (raw : Text) (labels : List Placement) (cell : Nat) :
    Prop :=
  ∃ p ∈ labels, ∃ q ∈ labels, (p.underlined settings raw).covers cell = true ∧
    (q.underlined settings raw).covers cell = true ∧ p.label.rank = q.label.rank ∧
    compare p.label.span.length q.label.span.length ≠ compare p.length q.length

/-- Two rows differ in some of their cells at most. -/
structure Row.AgreesBut (differs : RowKind → Nat → Prop) (r r' : Row) : Prop where
  rest : r' = { r with cells := r'.cells }
  size : r'.cells.length = r.cells.length
  cells : ∀ cell, ¬ differs r.kind cell → r'.cells[cell]? = r.cells[cell]?

namespace Row.AgreesBut

variable {differs : RowKind → Nat → Prop} {r r' : Row}

theorem refl (differs : RowKind → Nat → Prop) (r : Row) : r.AgreesBut differs r :=
  ⟨rfl, rfl, fun _ _ => rfl⟩

theorem refl_list (differs : RowKind → Nat → Prop) (rows : List Row) :
    List.Forall₂ (AgreesBut differs) rows rows :=
  List.forall₂_same.2 fun r _ => refl differs r

theorem mono {more : RowKind → Nat → Prop} (hmore : ∀ kind cell, differs kind cell → more kind cell)
    (h : r.AgreesBut differs r') : r.AgreesBut more r' :=
  ⟨h.rest, h.size, fun cell hcell => h.cells cell fun hd => hcell (hmore _ _ hd)⟩

/-- Rows that differ nowhere are the same. -/
theorem eq (h : r.AgreesBut differs r') (hnone : ∀ kind cell, ¬ differs kind cell) : r = r' := by
  rw [h.rest, List.ext_getElem? fun cell => h.cells cell (hnone _ cell)]

theorem eq_list {rows rows' : List Row} (h : List.Forall₂ (AgreesBut differs) rows rows')
    (hnone : ∀ kind cell, ¬ differs kind cell) : rows = rows' := by
  induction h with
  | nil => rfl
  | cons hr _ ih => rw [hr.eq hnone, ih]

end Row.AgreesBut

/-! ## Who owns a cell -/

namespace Placement

theorem lt_iff_and_eq_iff_of_compare_eq {a b c d : Nat} (h : compare a b = compare c d) :
    (a < b ↔ c < d) ∧ (a = b ↔ c = d) := by
  rw [← Nat.compare_eq_lt, ← Nat.compare_eq_eq, h, Nat.compare_eq_lt, Nat.compare_eq_eq]
  exact ⟨Iff.rfl, Iff.rfl⟩

/-- Labels whose spans compare like what is left of them claim cells like the repaired ones. -/
theorem keyLe_claimKey_repaired {s : Source} {p q : Placement}
    (hp : (p.label.repaired s).span.length = p.length)
    (hq : (q.label.repaired s).span.length = q.length)
    (hcompare : p.label.rank = q.label.rank →
      compare p.label.span.length q.label.span.length = compare p.length q.length) :
    keyLe (p.repaired s).claimKey (q.repaired s).claimKey = keyLe p.claimKey q.claimKey := by
  have hprank : (p.repaired s).label.rank = p.label.rank := rfl
  have hqrank : (q.repaired s).label.rank = q.label.rank := rfl
  have hplength : (p.repaired s).label.span.length = p.length := hp
  have hqlength : (q.repaired s).label.span.length = q.length := hq
  rw [Bool.eq_iff_iff, keyLe_claimKey_iff, keyLe_claimKey_iff, hprank, hqrank, hplength, hqlength]
  refine or_congr_right (and_congr_right fun hrank => ?_)
  obtain ⟨hlt, heq⟩ := lt_iff_and_eq_iff_of_compare_eq (hcompare hrank)
  rw [hlt, heq]
  rfl

end Placement

namespace Marks

variable (pen : Pen) {s : Source} {raw : Text} {labels : List Placement} {cell : Nat}

/-- **A cell without a contest** belongs to the same label after repairs. -/
theorem ownerAt?_repaired (hplaced : ∀ p ∈ labels, (p.label.repaired s).span.length = p.length)
    (hnone : ¬ Placement.Contest pen.settings raw labels cell) :
    ((ofLabels pen (.ofLine pen.settings.tabWidth raw) labels).repaired s).ownerAt? cell =
      ((ofLabels pen (.ofLine pen.settings.tabWidth raw) labels).ownerAt? cell).map
        (·.repaired s) := by
  let covering := ((ofLabels pen (.ofLine pen.settings.tabWidth raw) labels).filter
    (·.2.covers cell)).map (·.1)
  have hcovers : ∀ p ∈ covering,
      p ∈ labels ∧ (p.underlined pen.settings raw).covers cell = true := by
    intro p hp
    obtain ⟨m, hm, rfl⟩ := List.mem_map.1 hp
    obtain ⟨hmem, hcover⟩ := List.mem_filter.1 hm
    obtain ⟨q, hq, rfl⟩ := List.mem_map.1 hmem
    exact ⟨hq, hcover⟩
  have hrepaired : (((ofLabels pen (.ofLine pen.settings.tabWidth raw) labels).repaired s).filter
      (·.2.covers cell)).map (·.1) = covering.map (·.repaired s) := by
    rw [repaired, List.filter_map, List.map_map, List.map_map]
    rfl
  have hkeys : ∀ p ∈ covering, ∀ q ∈ covering,
      keyLe (p.repaired s).claimKey (q.repaired s).claimKey = keyLe p.claimKey q.claimKey := by
    intro p hp q hq
    obtain ⟨hpmem, hpcovers⟩ := hcovers p hp
    obtain ⟨hqmem, hqcovers⟩ := hcovers q hq
    refine Placement.keyLe_claimKey_repaired (hplaced p hpmem) (hplaced q hqmem) fun hrank => ?_
    exact Classical.byContradiction fun hne =>
      hnone ⟨p, hpmem, q, hqmem, hpcovers, hqcovers, hrank, hne⟩
  unfold ownerAt?
  rw [hrepaired, Placement.owner?, Placement.sortOn_map hkeys, List.head?_map]
  rfl

/-- Its underline is drawn as before. -/
theorem underlineCell_repaired
    (hplaced : ∀ p ∈ labels, (p.label.repaired s).span.length = p.length)
    (hnone : ¬ Placement.Contest pen.settings raw labels cell) (hung : Marks) :
    underlineCell pen ((ofLabels pen (.ofLine pen.settings.tabWidth raw) labels).repaired s)
        (hung.repaired s) cell =
      underlineCell pen (ofLabels pen (.ofLine pen.settings.tabWidth raw) labels) hung cell := by
  unfold underlineCell
  rw [attachedAt?_repaired, ownerAt?_repaired pen hplaced hnone]
  cases hung.attachedAt? cell with
  | some p => rfl
  | none =>
    dsimp only [Option.map_none]
    cases (ofLabels pen (.ofLine pen.settings.tabWidth raw) labels).ownerAt? cell <;> rfl

end Marks

/-! ## Rows -/

namespace Snippet

variable {pen : Pen} {snippet : Snippet} {s : Source} {line : Nat}

/-- Labels contest a cell below a line. -/
def Contested (settings : Settings) (snippet : Snippet) (source : Source) (kind : RowKind)
    (cell : Nat) : Prop :=
  ∃ line, kind = .underline line ∧ Placement.Contest settings
    ((source.lines[line]?.map (·.raw)).getD []) (snippet.labelsOn line) cell

namespace IsLaidOut

variable (h : snippet.IsLaidOut)

include h

theorem mem_labels_of_mem_endings {p : Placement} (hp : p ∈ (snippet.endings line).map (·.1)) :
    p ∈ snippet.labels := by
  obtain ⟨e, he, rfl⟩ := List.mem_map.1 hp
  exact (h.mem_of_mem_lanes (mem_endings.1 he).1).1

/-- Without labels of one line the rows of a line are the same. -/
theorem lineRows_repaired (pen : Pen) (s source : Source) {line : Nat}
    (hnil : snippet.labelsOn line = []) :
    lineRows pen (snippet.repaired s) source line = lineRows pen snippet source line := by
  have hempty (display : DisplayLine) : marksOn pen snippet line display = [] := by
    rw [marksOn]
    exact congrArg (Marks.ofLabels pen display) hnil
  unfold lineRows
  dsimp only
  rw [sourceRow_repaired, endings_repaired, marksOn_repaired, hempty,
    h.endingMessages_repaired s line fun e he => (mem_endings.1 he).1]
  rfl

/-- With them only the row of underlines is another one. -/
theorem exists_lineRows_repaired (pen : Pen) (s source : Source) {line : Nat} {raw : Text}
    (hraw : (source.lines[line]?.map (·.raw)).getD [] = raw) (hne : snippet.labelsOn line ≠ []) :
    let marks := Marks.ofLabels pen (.ofLine pen.settings.tabWidth raw) (snippet.labelsOn line)
    ∃ top pending below,
      lineRows pen snippet source line =
        top :: underlineRow pen snippet line pending marks :: below ∧
      lineRows pen (snippet.repaired s) source line =
        top :: underlineRow pen snippet line pending (marks.repaired s) :: below := by
  intro marks
  have hmarks : marksOn pen snippet line (.ofLine pen.settings.tabWidth raw) = marks := rfl
  have hempty : marks.isEmpty = false :=
    List.isEmpty_map.trans (List.isEmpty_eq_false_iff.2 hne)
  have hempty' : (marks.repaired s).isEmpty = false := by
    rw [Marks.repaired, List.isEmpty_map, hempty]
  have hpending : ((snippet.endings line).repaired s).map (·.1) =
      ((snippet.endings line).map (·.1)).map (·.repaired s) := by
    rw [Lanes.repaired, List.map_map, List.map_map]
    rfl
  have hmargin := betweenMargin_repaired pen s pen.glyphs.vertical line fun e he =>
    h.isOpenBelow_repaired s (fun q (hq : q ∈ (snippet.endings line).map (·.1)) =>
      h.mem_labels_of_mem_endings hq) he
  have hhung : (marks.repaired s).withMessages = marks.withMessages.repaired s :=
    Marks.withMessages_repaired pen s _ _
  unfold lineRows markRows
  dsimp only
  rw [hraw, sourceRow_repaired, endings_repaired, hpending, marksOn_repaired, hmarks, hempty,
    hempty', hmargin, hhung, Marks.messageColumn_repaired, Marks.markMessages_repaired,
    h.endingMessages_repaired s line fun e he => (mem_endings.1 he).1]
  exact ⟨_, _, _, rfl, rfl⟩

variable (hplaced : ∀ p ∈ snippet.labels, (p.label.repaired s).span.length = p.length)

include hplaced

/-- **The rows of a line** agree, but for cells with a contest. -/
theorem forall₂_lineRows (source : Source) (line : Nat) :
    List.Forall₂ (Row.AgreesBut (Contested pen.settings snippet source))
      (lineRows pen snippet source line) (lineRows pen (snippet.repaired s) source line) := by
  by_cases hnil : snippet.labelsOn line = []
  · rw [h.lineRows_repaired pen s source hnil]
    exact Row.AgreesBut.refl_list _ _
  · obtain ⟨top, pending, below, heq, heq'⟩ :=
      h.exists_lineRows_repaired pen s source rfl hnil
    have hplacedOn : ∀ p ∈ snippet.labelsOn line, (p.label.repaired s).span.length = p.length :=
      fun p hp => hplaced p (List.mem_filter.1 hp).1
    rw [heq, heq']
    refine .cons (Row.AgreesBut.refl _ _) (.cons ⟨rfl, ?_, fun cell hcell => ?_⟩
      (Row.AgreesBut.refl_list _ _))
    · rw [underlineRow, underlineRow, Marks.underline, Marks.underline, List.length_map,
        List.length_map, List.length_range, List.length_range, Marks.width_repaired]
    · have hnone : ¬ Placement.Contest pen.settings ((source.lines[line]?.map (·.raw)).getD [])
          (snippet.labelsOn line) cell := fun hcontest => hcell ⟨line, rfl, hcontest⟩
      rw [underlineRow, underlineRow, Marks.getElem?_underline, Marks.getElem?_underline,
        Marks.width_repaired, Marks.withMessages_repaired]
      split
      · exact congrArg some (Marks.underlineCell_repaired pen hplacedOn hnone _)
      · rfl

/-- **The body of a snippet** agrees, but for cells with a contest. -/
theorem forall₂_bodyRows (source : Source) (hsource : snippet.source = some source) :
    List.Forall₂ (Row.AgreesBut (Contested pen.settings snippet source))
      (bodyRows pen snippet) (bodyRows pen (snippet.repaired s)) := by
  have hsource' : (snippet.repaired s).source = some source := hsource
  have hempty : (snippet.repaired s).labels.isEmpty = snippet.labels.isEmpty := List.isEmpty_map
  unfold bodyRows
  rw [hsource, hsource', hempty]
  dsimp only
  split
  · exact List.Forall₂.nil
  · refine List.rel_append (List.rel_append (Row.AgreesBut.refl_list _ _) ?_)
      (Row.AgreesBut.refl_list _ _)
    refine forall₂_flatMap fun e _ => ?_
    cases e with
    | line line => exact h.forall₂_lineRows hplaced source line
    | skipped first count =>
      rw [entryRows, entryRows, h.skippedRow_repaired]
      exact Row.AgreesBut.refl_list _ _

end IsLaidOut

end Snippet

/-! ## Reports -/

/-- Repairs change nothing but the span of a label. -/
theorem Label.exists_repairedIn_eq (registry : Registry) (label : Label) :
    ∃ span, label.repairedIn registry = { label with span := span } := by
  unfold repairedIn
  split
  · exact ⟨_, rfl⟩
  · exact ⟨label.span, rfl⟩

/-- The styles of labels do not depend on their spans. -/
theorem stylesFrom_repaired (settings : Settings) (registry : Registry) (level : Level)
    (palette : Palette) (labels : List Label) :
    stylesFrom settings level palette (labels.map (·.repairedIn registry)) =
      stylesFrom settings level palette labels := by
  induction labels generalizing palette with
  | nil => rfl
  | cons label labels ih =>
    obtain ⟨span, hlabel⟩ := label.exists_repairedIn_eq registry
    rw [List.map_cons, hlabel, stylesFrom, stylesFrom, ih, ih]

variable (settings : Settings) (registry : Registry) (d : Diagnostic) (file : SourceId)

/-- Repairs change nothing of a snippet but its labels and their lanes. -/
theorem Snippet.exists_ofFile_repaired_eq : ∃ labels lanes,
    ofFile settings registry (d.repaired registry) file =
      { ofFile settings registry d file with labels := labels, lanes := lanes } := by
  cases hs : registry.source? file with
  | some s => exact ⟨_, _, ofFile_repaired settings d hs⟩
  | none => exact ⟨_, _, ofFile_repaired_of_missing settings d hs⟩

namespace Report

/-- Labels of one line contest a cell below their line. -/
def IsContested (kind : RowKind) (cell : Nat) : Prop :=
  ∃ s line l, registry.source? file = some s ∧ kind = .underline line ∧ s.lines[line]? = some l ∧
    Placement.Contest settings l.raw (d.labelsOn file s line) cell

theorem lead_repaired : lead (Snippet.ofDiagnostic settings registry (d.repaired registry)) =
    lead (Snippet.ofDiagnostic settings registry d) := by
  rw [Snippet.ofDiagnostic, Snippet.ofDiagnostic, Diagnostic.files_repaired]
  cases d.files with
  | nil => rfl
  | cons file files =>
    obtain ⟨labels, lanes, heq⟩ := Snippet.exists_ofFile_repaired_eq settings registry d file
    rw [List.map_cons, List.map_cons, heq]
    rfl

theorem digits_repaired : digits (Snippet.ofDiagnostic settings registry (d.repaired registry)) =
    digits (Snippet.ofDiagnostic settings registry d) := by
  have hnumbers :
      (Snippet.ofDiagnostic settings registry (d.repaired registry)).map (·.lastNumber) =
        (Snippet.ofDiagnostic settings registry d).map (·.lastNumber) := by
    rw [Snippet.ofDiagnostic, Snippet.ofDiagnostic, Diagnostic.files_repaired, List.map_map,
      List.map_map]
    refine List.map_congr_left fun file _ => ?_
    obtain ⟨labels, lanes, heq⟩ := Snippet.exists_ofFile_repaired_eq settings registry d file
    rw [Function.comp_apply, heq]
    rfl
  have hlengths : ∀ snippets : List Snippet, digits snippets =
      ((snippets.map (·.lastNumber)).map fun n => (Text.ofNat n).length).foldl max 1 := by
    intro snippets
    rw [List.map_map]
    rfl
  rw [hlengths, hlengths, hnumbers]

/-- Repaired labels are drawn with the same pen. -/
theorem pen_repaired : pen settings registry (d.repaired registry) = pen settings registry d := by
  have hstyles : labelStyles settings (d.repaired registry) = labelStyles settings d :=
    stylesFrom_repaired settings registry d.level .default d.labels
  rw [pen, pen, hstyles, digits_repaired]

/-- **The rows for a source** agree, but for cells with a contest. -/
theorem forall₂_body : List.Forall₂ (Row.AgreesBut (IsContested settings registry d file))
    (body settings registry d file) (body settings registry (d.repaired registry) file) := by
  unfold body
  rw [pen_repaired]
  cases hs : registry.source? file with
  | none =>
    rw [Snippet.ofFile_repaired_of_missing settings d hs]
    exact Row.AgreesBut.refl_list _ _
  | some s =>
    have hplaced : ∀ p ∈ (Snippet.ofFile settings registry d file).labels,
        (p.label.repaired s).span.length = p.length := by
      rw [Snippet.labels_ofFile hs]
      intro p hp
      obtain ⟨index, label, rfl⟩ := Diagnostic.exists_label_of_mem hp
      exact Placement.length_span_repaired s index label
    rw [Snippet.ofFile_repaired settings d hs]
    refine ((Snippet.isLaidOut_ofFile settings d hs).forall₂_bodyRows hplaced s
      (Snippet.source_ofFile hs)).imp fun r r' hr => hr.mono ?_
    rintro kind cell ⟨line, rfl, hcontest⟩
    rw [Snippet.labelsOn_ofFile settings d hs] at hcontest
    obtain ⟨p, hp, -⟩ := id hcontest
    obtain ⟨l, hl⟩ := Diagnostic.exists_line (List.ne_nil_of_mem hp)
    rw [hl] at hcontest
    exact ⟨s, line, l, hs, rfl, hl, hcontest⟩

/-- **All rows** agree, but for cells with a contest. -/
theorem forall₂_rows :
    List.Forall₂
      (Row.AgreesBut fun kind cell => ∃ file, IsContested settings registry d file kind cell)
      (ofDiagnostic settings registry d).rows
      (ofDiagnostic settings registry (d.repaired registry)).rows := by
  have hrefl := Row.AgreesBut.refl_list fun kind cell =>
    ∃ file, IsContested settings registry d file kind cell
  cases hdetail : settings.detail with
  | rich =>
    rw [rows_ofDiagnostic settings hdetail, rows_ofDiagnostic settings hdetail, allRows_eq,
      allRows_eq, pen_repaired, Diagnostic.files_repaired]
    refine List.rel_append (List.rel_append (hrefl _) (forall₂_flatMap fun e _ => ?_)) (hrefl _)
    obtain ⟨labels, lanes, heq⟩ := Snippet.exists_ofFile_repaired_eq settings registry d e.1
    unfold part
    rw [pen_repaired, heq]
    refine List.Forall₂.cons (Row.AgreesBut.refl _ _) ?_
    exact (forall₂_body settings registry d e.1).imp fun r r' hr =>
      hr.mono fun _ _ hcell => ⟨e.1, hcell⟩
  | medium =>
    simp only [ofDiagnostic, hdetail, briefRows, lead_repaired]
    exact hrefl _
  | short =>
    simp only [ofDiagnostic, hdetail, briefRows, lead_repaired]
    exact hrefl _

/-- **Repairs leave the report as it is**, but for the cells that labels of one line contest: those
that two labels of one priority cover whose spans compare in another way than what is left of them
in the source. Without such cells the rows are the same. The repaired labels have no issues, unless
their source is missing. -/
theorem repairs_agree :
    (∀ file, List.Forall₂ (Row.AgreesBut (IsContested settings registry d file))
      (body settings registry d file) (body settings registry (d.repaired registry) file)) ∧
    List.Forall₂
      (Row.AgreesBut fun kind cell => ∃ file, IsContested settings registry d file kind cell)
      (ofDiagnostic settings registry d).rows
      (ofDiagnostic settings registry (d.repaired registry)).rows ∧
    ((∀ file kind cell, ¬ IsContested settings registry d file kind cell) →
      (ofDiagnostic settings registry (d.repaired registry)).rows =
        (ofDiagnostic settings registry d).rows) ∧
    (ofDiagnostic settings registry (d.repaired registry)).issues =
      (ofDiagnostic settings registry d).issues.filter (·.flaw = .unregistered) := by
  refine ⟨forall₂_body settings registry d, forall₂_rows settings registry d, fun hnone => ?_,
    Diagnostic.issues_repaired registry d⟩
  refine (Row.AgreesBut.eq_list (forall₂_rows settings registry d) ?_).symm
  rintro kind cell ⟨file, hcontest⟩
  exact hnone file kind cell hcontest

variable {settings registry d file}

/-- A report that shows one source. -/
theorem rows_of_files_eq_singleton (registry : Registry) (hrich : settings.detail = .rich)
    (hfiles : d.files = [file]) :
    (ofDiagnostic settings registry d).rows = headerRows settings.theme [] d ++
      locatorRow (pen settings registry d) true (.ofFile settings registry d file) ::
        body settings registry d file ++
      noteRows (pen settings registry d) ((pen settings registry d).digits + 1) d.notes := by
  rw [rows_ofDiagnostic settings hrich, allRows_eq, hfiles, List.zipIdx_singleton,
    List.flatMap_singleton]
  rfl

/-- In a report that shows one line, repairs concern the row of underlines below it. -/
theorem exists_rows_repaired {s : Source} {line : Nat} {l : Line} (hrich : settings.detail = .rich)
    (hs : registry.source? file = some s) (hfiles : d.files = [file])
    (hwindow : (Snippet.ofFile settings registry d file).window = [.line line])
    (hl : s.lines[line]? = some l) (hne : d.labelsOn file s line ≠ []) :
    let pen := pen settings registry d
    let marks := Marks.ofLabels pen (.ofLine settings.tabWidth l.raw) (d.labelsOn file s line)
    ∃ above pending below,
      (ofDiagnostic settings registry d).rows =
        above ++ Snippet.underlineRow pen (.ofFile settings registry d file) line pending
          marks :: below ∧
      (ofDiagnostic settings registry (d.repaired registry)).rows =
        above ++ Snippet.underlineRow pen (.ofFile settings registry d file) line pending
          (marks.repaired s) :: below := by
  intro pen marks
  have hsource : (Snippet.ofFile settings registry d file).source = some s :=
    Snippet.source_ofFile hs
  have hlabels : (Snippet.ofFile settings registry d file).labels = d.placements file s :=
    Snippet.labels_ofFile hs
  have hsome : (Snippet.ofFile settings registry d file).labels ≠ [] := by
    intro hnil
    rw [Diagnostic.labelsOn, ← hlabels, hnil] at hne
    exact hne rfl
  have hlabelsOn := Snippet.labelsOn_ofFile settings d hs line
  have hraw : (s.lines[line]?.map (·.raw)).getD [] = l.raw := by
    rw [hl]
    rfl
  obtain ⟨top, pending, below, heq, heq'⟩ :=
    (Snippet.isLaidOut_ofFile settings d hs).exists_lineRows_repaired pen s s hraw
      (by rwa [hlabelsOn])
  rw [hlabelsOn] at heq heq'
  have hbody : body settings registry d file =
      pen.borders ++ Snippet.lineRows pen (.ofFile settings registry d file) s line ++
        pen.borders := Snippet.bodyRows_eq_of_line hsource hsome hwindow
  have hbody' : body settings registry (d.repaired registry) file =
      pen.borders ++ Snippet.lineRows pen ((Snippet.ofFile settings registry d file).repaired s) s
        line ++ pen.borders := by
    rw [body, Snippet.ofFile_repaired settings d hs, pen_repaired]
    exact Snippet.bodyRows_eq_of_line (s := (Snippet.ofFile settings registry d file).repaired s)
      hsource (fun hnil => hsome (List.map_eq_nil_iff.1 hnil)) hwindow
  obtain ⟨labels, lanes, hframe⟩ := Snippet.exists_ofFile_repaired_eq settings registry d file
  have hfiles' : (d.repaired registry).files = [file] := (d.files_repaired registry).trans hfiles
  refine ⟨headerRows settings.theme [] d ++
      locatorRow pen true (.ofFile settings registry d file) :: (pen.borders ++ [top]), pending,
    below ++ pen.borders ++ noteRows pen (pen.digits + 1) d.notes, ?_, ?_⟩
  · rw [rows_of_files_eq_singleton registry hrich hfiles, hbody, heq]
    simp only [List.append_assoc, List.cons_append, List.nil_append]
    rfl
  · rw [rows_of_files_eq_singleton registry hrich hfiles', hbody', heq', pen_repaired, hframe]
    simp only [List.append_assoc, List.cons_append, List.nil_append]
    rfl

/-- If its text stays the same, so do these underlines. -/
theorem underline_eq_of_write_eq {s : Source} {line : Nat} {l : Line}
    (hrich : settings.detail = .rich) (hs : registry.source? file = some s)
    (hfiles : d.files = [file])
    (hwindow : (Snippet.ofFile settings registry d file).window = [.line line])
    (hl : s.lines[line]? = some l) (hne : d.labelsOn file s line ≠ []) {color : Bool}
    (hwrite : (ofDiagnostic settings registry (d.repaired registry)).write .plain color =
      (ofDiagnostic settings registry d).write .plain color) :
    let pen := pen settings registry d
    let display := DisplayLine.ofLine settings.tabWidth l.raw
    (Marks.underline pen (.ofLabels pen display
        ((d.labelsOn file s line).map (·.repaired s)))).map (·.glyph) =
      (Marks.underline pen (.ofLabels pen display (d.labelsOn file s line))).map (·.glyph) := by
  intro pen display
  obtain ⟨above, pending, below, hrows, hrows'⟩ :=
    exists_rows_repaired hrich hs hfiles hwindow hl hne
  have hwritten := written_eq_of_write_plain_eq hrows' hrows hwrite
  rw [← Marks.ofLabels_repaired] at hwritten
  have hmarks (labels : List Placement) (hlabels : labels ≠ []) :
      (Snippet.underlineRow pen (.ofFile settings registry d file) line pending
        (.ofLabels pen display labels)).written =
      (Snippet.underlineRow pen (.ofFile settings registry d file) line pending []).lead ++
        (Marks.underline pen (.ofLabels pen display labels)).map (·.glyph) :=
    Row.written_underline (Marks.isProper_ofLabels pen display labels)
      (fun hnil => hlabels (List.map_eq_nil_iff.1 hnil)) rfl rfl
  rw [hmarks _ hne, hmarks _ fun hnil => hne (List.map_eq_nil_iff.1 hnil)] at hwritten
  exact List.append_cancel_left hwritten

/-- **The text of a report** may change when its labels are repaired. The span of a primary label
goes on behind the end of the source. What is left of it is shorter than another label, to which it
loses the cells that they share, and repairs give it these cells. -/
theorem not_write_repaired : ¬ ∀ (settings : Settings) (registry : Registry) (d : Diagnostic)
    (format : Format) (color : Bool),
    (ofDiagnostic settings registry (d.repaired registry)).write format color =
      (ofDiagnostic settings registry d).write format color := by
  intro hall
  let s : Source := ⟨.snippet "a", "abc", by decide, ⟨1⟩, false⟩
  let registry : Registry := ⟨[⟨s, s.name, none⟩]⟩
  let past : Label := { span := ⟨⟨1⟩, 1, 9, by decide, by decide⟩ }
  let whole : Label := { span := ⟨⟨1⟩, 0, 3, by decide, by decide⟩, emphasis := .secondary }
  let d : Diagnostic := { level := .error, labels := [past, whole] }
  have hwindow : (Snippet.ofFile {} registry d ⟨1⟩).window = [.line 0] := by
    rw [Snippet.window_ofFile (s := s) rfl]
    decide +kernel
  have hline : (s.lines[0]?.map (·.raw)) = some ("abc" : Text) := by decide +kernel
  obtain ⟨l, hl, hraw⟩ := Option.map_eq_some_iff.1 hline
  let cut : Label := { span := ⟨⟨1⟩, 1, 3, by decide, by decide⟩ }
  let placed (first : Label) : List Placement :=
    [⟨0, first, 1, 3, 0, 0, 1, 3⟩, ⟨1, whole, 0, 3, 0, 0, 0, 3⟩]
  have hlabels : d.labelsOn ⟨1⟩ s 0 = placed past := by decide +kernel
  have hrepaired : (d.labelsOn ⟨1⟩ s 0).map (·.repaired s) = placed cut := by decide +kernel
  have hfiles : d.files = [⟨1⟩] := by decide +kernel
  have hne : d.labelsOn ⟨1⟩ s 0 ≠ [] := by
    rw [hlabels]
    exact List.cons_ne_nil _ _
  have hglyphs := underline_eq_of_write_eq rfl rfl hfiles hwindow hl hne
    (hall {} registry d .plain false)
  rw [hrepaired, hlabels, hraw] at hglyphs
  -- The labels share the second cell. The span of `past` is longer than that of `whole`, but what
  -- is left of it is shorter.
  have hbefore : Placement.IsFirst Placement.ClaimsBefore
      (fun q => q ∈ placed past ∧ q.Covers {} "abc" 1) ⟨1, whole, 0, 3, 0, 0, 0, 3⟩ := by
    refine ⟨⟨by simp [placed], by decide +kernel⟩, fun q hq hne => ?_⟩
    obtain rfl : q = ⟨0, past, 1, 3, 0, 0, 1, 3⟩ := by simpa [placed, hne] using hq.1
    exact Or.inr ⟨rfl, Or.inl (by decide)⟩
  have hafter : Placement.IsFirst Placement.ClaimsBefore
      (fun q => q ∈ placed cut ∧ q.Covers {} "abc" 1) ⟨0, cut, 1, 3, 0, 0, 1, 3⟩ := by
    refine ⟨⟨by simp [placed], by decide +kernel⟩, fun q hq hne => ?_⟩
    obtain rfl : q = ⟨1, whole, 0, 3, 0, 0, 0, 3⟩ := by simpa [placed, hne] using hq.1
    exact Or.inr ⟨rfl, Or.inl (by decide)⟩
  have hsilent : (∀ q ∈ placed past, ¬ q.HangsAt {} "abc" 1) ∧
      ∀ q ∈ placed cut, ¬ q.HangsAt {} "abc" 1 := by decide +kernel
  have hindices (first : Label) : ((placed first).map (·.index)).Nodup := by simp [placed]
  have hsecondary := @Marks.getElem?_underline_of_isFirst (pen {} registry d) "abc" _ 1 _
    (hindices past) hbefore hsilent.1
  have hprimary := @Marks.getElem?_underline_of_isFirst (pen {} registry d) "abc" _ 1 _
    (hindices cut) hafter hsilent.2
  have hglyph : Glyphs.unicode.underlineOf .primary = Glyphs.unicode.underlineOf .secondary :=
    Option.some.inj (hprimary.symm.trans ((congrArg (·[1]?) hglyphs).trans hsecondary))
  exact absurd hglyph (by decide)

end Report

end SourceReport
