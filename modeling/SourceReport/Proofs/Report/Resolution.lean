import SourceReport.Proofs.Report.Placing
import SourceReport.Proofs.Source.LineRange

/-!
# Labels resolved in a source

A label stores two offsets, and its source may not have them. Resolving the label moves each of them
to the last boundary at or before it, tells of every offset that was moved, and looks for the lines
and columns of the two ends. The two ends are repaired one by one, yet they keep their order, so the
lines and columns fit together.

* `Source.Tells` lists what there is to tell of one offset.
* `Placement.Resolves` says what a placement and its issues have to do with the label.

Results:
* `Source.tells_flaw?`: what is wrong with an offset is what there is to tell of it.
* `Placement.stop_ofLabel`: the repaired ends of a label keep their order.
* `Placement.isLineOf_ofLabel`: the lines of a label are those of its ends.
* `Placement.lookUp_resolves`: every label is resolved in every source.
-/

namespace SourceReport

/-- What there is to tell of an offset that a label stores. -/
inductive Source.Tells (s : Source) (o : Nat) : List LookupError → Prop
  /-- It lies behind the end of the source. -/
  | behind : s.length < o → Tells s o [.indexTooLarge o s.length]
  /-- It lies inside a character. -/
  | inside : s.LiesInside o → Tells s o [.insideCharacter o]
  /-- It lies between two characters or at an end. -/
  | between : s.isBoundary o = true → Tells s o []

/-- **What is wrong with an offset** of a span is all that there is to tell of it. -/
theorem Source.tells_flaw? (s : Source) {o : Nat} (hmax : o ≤ maxOffset) :
    s.Tells o (s.flaw? o).toList := by
  rw [flaw?_eq_fault? hmax]
  cases h : s.fault? o with
  | none =>
    have hfloor : s.floorBoundary o = o := Int.ofNat_inj.1 (fault?_eq_none_iff.1 h)
    exact .between (hfloor ▸ (s.isBoundary_floorBoundary o).1)
  | some e =>
    rcases fault?_eq_some h with ⟨rfl, hbehind⟩ | ⟨rfl, hle, hboundary⟩
    · exact .behind (Int.ofNat_lt.1 hbehind)
    · exact .inside (liesInside_of_isBoundary_eq_false (Int.ofNat_le.1 hle) hboundary)

namespace Placement

/-- The placement of a label in a source, with what there is to tell of its offsets. -/
structure Resolves (s : Source) (index : Nat) (label : Label) (p : Placement)
    (issues : List Issue) : Prop where
  stands_for : p.index = index ∧ p.label = label
  /-- Each end is the last boundary of its offset, brought into the source. -/
  start : p.start = s.floorBoundary (min label.span.start s.length : Nat)
  stop : p.stop = s.floorBoundary (min label.span.stop s.length : Nat)
  ordered : p.start ≤ p.stop
  /-- The issues tell of the start first, then of the end. -/
  issues : ∃ ofStart ofStop, s.Tells label.span.start ofStart ∧ s.Tells label.span.stop ofStop ∧
    issues = (ofStart ++ ofStop).map fun e => ⟨label.file, some index, .offset e⟩
  lines : p.firstLine ≤ p.lastLine ∧ p.lastLine < s.lineCount
  /-- The start column counts the bytes of the first line in front of the start. -/
  startColumn : ∃ l, s.line? p.firstLine = .ok l ∧ l.offset + p.startColumn = p.start ∧
    p.startColumn ≤ l.length
  /-- The end column counts the bytes of the last line in front of the end. -/
  stopColumn : ∃ l, s.line? p.lastLine = .ok l ∧ l.offset + p.stopColumn = p.stop ∧
    p.stopColumn ≤ l.length
  /-- The label goes on over the end of a line exactly if a line starts inside it. -/
  multiline : p.isMultiline = true ↔ ∃ x ∈ s.lineStarts, p.start < x ∧ x < p.stop

variable (s : Source) (index : Nat) (label : Label)

/-- **The repaired ends of a label** keep their order. -/
theorem stop_ofLabel : (ofLabel s index label).stop = s.floorBoundary label.span.stop :=
  Nat.max_eq_left (Source.floorBoundary_mono label.span.start_le_stop)

/-- The last boundary of an offset is that of the offset brought into the source. -/
theorem floorBoundary_eq_min (o : Nat) :
    s.floorBoundary o = s.floorBoundary (min o s.length : Nat) := by
  rw [← Source.floorBoundary_within]
  congr 1
  unfold Source.within
  omega

theorem start_le_stop : (ofLabel s index label).start ≤ (ofLabel s index label).stop :=
  Nat.le_max_right _ _

theorem stop_le_length : (ofLabel s index label).stop ≤ s.length :=
  Source.le_length_of_isBoundary (isBoundary_stop s index label)

/-- **The lines of a label** are those of its start and of its last byte. -/
theorem isLineOf_ofLabel :
    s.IsLineOf (ofLabel s index label).start (ofLabel s index label).firstLine ∧
      s.IsLineOf (max ((ofLabel s index label).stop - 1) (ofLabel s index label).start : Int)
        (ofLabel s index label).lastLine := by
  have hle := start_le_stop s index label
  have hlength := stop_le_length s index label
  have hbounds : 0 ≤ ((ofLabel s index label).start : Int) ∧
      ((ofLabel s index label).start : Int) ≤ (ofLabel s index label).stop ∧
      ((ofLabel s index label).stop : Int) ≤ s.length := by omega
  obtain ⟨first, last, hrange, hfirst, hlast⟩ := Source.exists_lineRange?_eq hbounds
  rw [lineRange?_ofLabel, Except.ok.injEq, Prod.mk.injEq] at hrange
  obtain ⟨rfl, rfl⟩ := hrange
  exact ⟨hfirst, hlast⟩

/-- The bytes in front of an offset in its line. -/
theorem column_bounds {l : Line} {o : Nat} (h : (l.offset : Int) ≤ o ∧ (o : Int) ≤ l.stop) :
    l.offset + (o - l.offset) = o ∧ o - l.offset ≤ l.length := by
  unfold Line.stop at h
  omega

/-- **The start column** leads from the start of the first line to that of the label. -/
theorem exists_startColumn :
    ∃ l, s.line? (ofLabel s index label).firstLine = .ok l ∧
      l.offset + (ofLabel s index label).startColumn = (ofLabel s index label).start ∧
      (ofLabel s index label).startColumn ≤ l.length := by
  have hle := start_le_stop s index label
  have hlength := stop_le_length s index label
  have hl := s.getElem?_index_lineFrom (ofLabel s index label).start
  obtain ⟨hfirst, -⟩ := isLineOf_ofLabel s index label
  exact ⟨_, line?_index_lineFrom s _,
    column_bounds ⟨hfirst.offset_le hl, hfirst.le_stop hl (by omega)⟩⟩

/-- **The end column** leads from the start of the last line to the end of the label. -/
theorem exists_stopColumn :
    ∃ l, s.line? (ofLabel s index label).lastLine = .ok l ∧
      l.offset + (ofLabel s index label).stopColumn = (ofLabel s index label).stop ∧
      (ofLabel s index label).stopColumn ≤ l.length := by
  have hle := start_le_stop s index label
  have hlength := stop_le_length s index label
  have hl := s.getElem?_index_lineFrom
    (max ((ofLabel s index label).stop - 1) (ofLabel s index label).start)
  obtain ⟨-, hlast⟩ := isLineOf_ofLabel s index label
  exact ⟨_, line?_index_lineFrom s _,
    column_bounds (hlast.stop_bounds (Int.ofNat_le.2 hle) (Int.ofNat_le.2 hlength) hl)⟩

/-- **A label has several lines** exactly if a line starts inside it. -/
theorem isMultiline_ofLabel_iff :
    (ofLabel s index label).isMultiline = true ↔
      ∃ x ∈ s.lineStarts, (ofLabel s index label).start < x ∧ x < (ofLabel s index label).stop := by
  have hlines := firstLine_le_lastLine s index label
  obtain ⟨hfirst, hlast⟩ := isLineOf_ofLabel s index label
  have hlt : (ofLabel s index label).isMultiline = true ↔
      (ofLabel s index label).firstLine < (ofLabel s index label).lastLine := by
    rw [isMultiline, decide_eq_true_iff]
    omega
  refine hlt.trans ((hfirst.lt_iff hlast).trans (exists_congr fun x => and_congr_right fun _ => ?_))
  omega

/-- **What resolving a label gives.** -/
theorem resolves_ofLabel : Resolves s index label (ofLabel s index label) (issues s index label) where
  stands_for := ⟨rfl, rfl⟩
  start := floorBoundary_eq_min s label.span.start
  stop := (stop_ofLabel s index label).trans (floorBoundary_eq_min s label.span.stop)
  ordered := start_le_stop s index label
  issues := ⟨_, _, s.tells_flaw? label.span.start_le_max, s.tells_flaw? label.span.stop_le_max,
    issues_eq_map s index label⟩
  lines := ⟨firstLine_le_lastLine s index label, (isLineOf_ofLabel s index label).2.lt_lineCount⟩
  startColumn := exists_startColumn s index label
  stopColumn := exists_stopColumn s index label
  multiline := isMultiline_ofLabel_iff s index label

/-- **Labels in a source.** Every label is resolved in every source, whatever its offsets, and
resolving it gives its placement and its issues. The ends are those of the span, brought into the
source and moved to the last boundaries; they keep their order. The issues tell of the offsets that
were moved and of nothing else. The lines and columns are those of the two ends. -/
theorem lookUp_resolves (s : Source) (index : Nat) (label : Label) :
    lookUp s index label = .ok (ofLabel s index label, issues s index label) ∧
      Resolves s index label (ofLabel s index label) (issues s index label) :=
  ⟨lookUp_eq s index label, resolves_ofLabel s index label⟩

end Placement

end SourceReport
