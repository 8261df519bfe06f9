import SourceReport.Proofs.Layout.Lanes
import SourceReport.Proofs.Layout.Window

/-!
# Labels and lines of a snippet

A snippet shows the labels of a diagnostic that point into its source. Every line in which labels of
one line stand is one of the source's lines, and the window of the snippet prints it.

* `Diagnostic.placements` are the labels in place, `Diagnostic.labelsOn` those of one line that
  stand in a line.
* `Snippet.IsLaidOut` is what holds of every snippet of a source: its labels have indices and lanes,
  and the lines of their ends are in the window.

Results:
* `Diagnostic.exists_line`: a line with labels is there.
* `Snippet.mem_window`, `mem_window_of_isEnd`: it is printed, and so are the ends of all labels.
* `Diagnostic.mem_files_of_labelsOn`: its source is one of those of the report.
* `Snippet.isLaidOut_ofFile`: a snippet of a source is laid out.
* `Snippet.IsLaidOut.mem_of_mem_lanes`: its lanes hold labels of several lines.
-/

namespace SourceReport

/-- The labels of a diagnostic that point into a source, in place. -/
def Diagnostic.placements (d : Diagnostic) (file : SourceId) (s : Source) : List Placement :=
  (Snippet.labelsOf d file).map fun (label, index) => .ofLabel s index label

/-- Those of one line that stand in a line of the source. -/
def Diagnostic.labelsOn (d : Diagnostic) (file : SourceId) (s : Source) (line : Nat) :
    List Placement :=
  (d.placements file s).filter fun p => !p.isMultiline && p.firstLine = line

variable {settings : Settings} {registry : Registry} {d : Diagnostic} {file : SourceId} {s : Source}

namespace Snippet

/-- The labels of one line that stand in a line. -/
def labelsOn (snippet : Snippet) (line : Nat) : List Placement :=
  snippet.labels.filter fun p => !p.isMultiline && p.firstLine = line

theorem source_ofFile (h : registry.source? file = some s) :
    (ofFile settings registry d file).source = some s := by
  simp only [ofFile, h]

theorem labels_ofFile (h : registry.source? file = some s) :
    (ofFile settings registry d file).labels = d.placements file s := by
  simp only [ofFile, h]
  rfl

theorem window_ofFile (h : registry.source? file = some s) :
    (ofFile settings registry d file).window = .ofLines settings.gapThreshold
      (visibleLines (d.placements file s) s.lineCount settings.linesBefore
        settings.linesAfter) := by
  simp only [ofFile, h]
  rfl

theorem labelsOn_ofFile (settings : Settings) {registry : Registry} (d : Diagnostic)
    {file : SourceId} {s : Source} (hs : registry.source? file = some s) (line : Nat) :
    (ofFile settings registry d file).labelsOn line = d.labelsOn file s line := by
  rw [labelsOn, labels_ofFile hs, Diagnostic.labelsOn]

end Snippet

theorem Snippet.mem_labelsOf {label : Label} {index : Nat} :
    (label, index) ∈ labelsOf d file ↔ d.labels[index]? = some label ∧ label.file = file := by
  rw [labelsOf, List.mem_filter, List.mem_zipIdx_iff_getElem?, decide_eq_true_eq]

theorem Diagnostic.exists_label_of_mem {p : Placement} (h : p ∈ d.placements file s) :
    ∃ index label, p = .ofLabel s index label := by
  obtain ⟨⟨label, index⟩, _, rfl⟩ := List.mem_map.1 h
  exact ⟨index, label, rfl⟩

theorem Diagnostic.isMultiline_of_mem_labelsOn {line : Nat} {p : Placement}
    (h : p ∈ d.labelsOn file s line) : p.isMultiline = false := by
  have htest := (List.mem_filter.1 h).2
  simp only [Bool.and_eq_true, Bool.not_eq_true'] at htest
  exact htest.1

/-- A line with labels is there. -/
theorem Diagnostic.exists_line {line : Nat} (h : d.labelsOn file s line ≠ []) :
    ∃ l, s.lines[line]? = some l := by
  obtain ⟨p, hmem⟩ := List.exists_mem_of_ne_nil _ h
  obtain ⟨hp, hline⟩ := List.mem_filter.1 hmem
  obtain ⟨index, label, rfl⟩ := exists_label_of_mem hp
  simp only [Bool.and_eq_true, decide_eq_true_eq] at hline
  rw [← hline.2]
  exact Placement.exists_firstLine s index label

/-- The lines in which a label starts and ends are printed. -/
theorem Snippet.mem_window_of_isEnd (settings : Settings) (hs : registry.source? file = some s)
    {p : Placement} (hp : p ∈ d.placements file s) {line : Nat}
    (hend : line = p.firstLine ∨ line = p.lastLine) :
    .line line ∈ (ofFile settings registry d file).window := by
  obtain ⟨index, label, rfl⟩ := Diagnostic.exists_label_of_mem hp
  have hline : ∃ l, s.lines[line]? = some l := by
    rcases hend with rfl | rfl
    · exact Placement.exists_firstLine s index label
    · exact Placement.exists_lastLine s index label
  obtain ⟨l, hl⟩ := hline
  rw [window_ofFile hs]
  exact Window.mem_ofLines (mem_visibleLines hp hend (List.getElem?_eq_some_iff.1 hl).1)

/-- A line with labels is printed. -/
theorem Snippet.mem_window (settings : Settings) (hs : registry.source? file = some s) {line : Nat}
    (h : d.labelsOn file s line ≠ []) : .line line ∈ (ofFile settings registry d file).window := by
  obtain ⟨p, hmem⟩ := List.exists_mem_of_ne_nil _ h
  obtain ⟨hp, hline⟩ := List.mem_filter.1 hmem
  simp only [Bool.and_eq_true, decide_eq_true_eq] at hline
  exact mem_window_of_isEnd settings hs hp (Or.inl hline.2.symm)

/-- A source with labels on one of its lines is shown. -/
theorem Diagnostic.mem_files_of_labelsOn {line : Nat} (h : d.labelsOn file s line ≠ []) :
    file ∈ d.files := by
  obtain ⟨p, hp⟩ := List.exists_mem_of_ne_nil _ h
  obtain ⟨⟨label, index⟩, hlabel, _⟩ := List.mem_map.1 (List.mem_filter.1 hp).1
  obtain ⟨hmem, hfile⟩ := List.mem_filter.1 hlabel
  obtain rfl : label.file = file := by simpa using hfile
  exact mem_files (List.fst_mem_of_mem_zipIdx hmem)

/-! ## Snippets as they are laid out -/

/-- A snippet of a source, with its labels in place and in lanes, and their ends in the window. -/
structure Snippet.IsLaidOut (s : Snippet) : Prop where
  /-- Every label has an index of its own. -/
  indices : (s.labels.map (·.index)).Nodup
  ordered : ∀ p ∈ s.labels, p.firstLine ≤ p.lastLine
  lanes : s.lanes = .assign s.labels
  ascending : s.window.IsAscending
  /-- Lines are skipped behind other ones only. -/
  skipped_pos : ∀ first count, .skipped first count ∈ s.window → 0 < first
  mem_window : ∀ p ∈ s.labels, ∀ line, line = p.firstLine ∨ line = p.lastLine →
    .line line ∈ s.window

/-- The lanes hold labels of several lines. -/
theorem Snippet.IsLaidOut.mem_of_mem_lanes {s : Snippet} (h : s.IsLaidOut) {p : Placement}
    {lane : Nat} (hp : (p, lane) ∈ s.lanes) : p ∈ s.labels ∧ p.isMultiline = true := by
  rw [h.lanes] at hp
  exact Lanes.mem_of_mem_assign hp

/-- The labels of a diagnostic have indices of their own. -/
theorem Snippet.nodup_labelsOf (d : Diagnostic) (file : SourceId) :
    ((labelsOf d file).map Prod.snd).Nodup := by
  have hnodup : (d.labels.zipIdx.map Prod.snd).Nodup := by
    rw [List.zipIdx_map_snd]
    exact List.nodup_range'
  exact hnodup.sublist (List.filter_sublist.map _)

theorem Diagnostic.nodup_placements (d : Diagnostic) (file : SourceId) (s : Source) :
    ((d.placements file s).map (·.index)).Nodup := by
  have hnodup := Snippet.nodup_labelsOf d file
  rwa [placements, List.map_map]

theorem Diagnostic.nodup_labelsOn (d : Diagnostic) (file : SourceId) (s : Source) (line : Nat) :
    ((d.labelsOn file s line).map (·.index)).Nodup :=
  (d.nodup_placements file s).sublist (List.filter_sublist.map _)

/-- **A snippet of a source** is laid out. -/
theorem Snippet.isLaidOut_ofFile (settings : Settings) (d : Diagnostic)
    (hs : registry.source? file = some s) : (ofFile settings registry d file).IsLaidOut := by
  have hlabels : (ofFile settings registry d file).labels = d.placements file s := labels_ofFile hs
  refine ⟨?_, ?_, ?_, ?_, ?_, ?_⟩
  · rw [hlabels]
    exact d.nodup_placements file s
  · rw [hlabels]
    intro p hp
    obtain ⟨index, label, rfl⟩ := Diagnostic.exists_label_of_mem hp
    exact Placement.firstLine_le_lastLine s index label
  · simp only [ofFile, hs]
  · rw [window_ofFile hs]
    exact Window.isAscending_ofLines pairwise_visibleLines
  · rw [window_ofFile hs]
    exact fun _ _ => Window.pos_of_mem_ofLines_skipped pairwise_visibleLines
  · rw [hlabels]
    exact fun p hp line hend => mem_window_of_isEnd settings hs hp hend

end SourceReport
