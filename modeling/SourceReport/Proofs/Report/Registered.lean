import SourceReport.Proofs.Output.Ansi
import SourceReport.Proofs.Report.Issues
import SourceReport.Proofs.Report.Printed

/-!
# Diagnostics in registered sources

A report can go wrong in two ways: a source is missing, or a color cannot be written. A diagnostic
that refers to registered sources and has valid colors is shown in full, in every format. What is
left to report are offsets that its sources do not have.

* `Diagnostic.IsFit` says that a diagnostic is of this kind.
* `Diagnostic.FindsAll` says that a report finds what it looks up in a source.

Results:
* `Diagnostic.findsAll`: it does so in every registered source.
* `Report.exists_write_ofAll`: the reports of such diagnostics can be written.
* `Report.kind_ne_unavailable`: no row stands for a missing source.
* `Report.offset_of_mem_issues`: every issue is about an offset.
-/

namespace SourceReport

/-- All code points. -/
def Ink.all : Ink where
  Has _ := True
  has_of_not_control _ _ := trivial
  has_newline := trivial

theorem Text.isIn_all (t : Text) : t.IsIn .all := fun _ _ => trivial

/-- A diagnostic refers to registered sources only, and the colors of its labels are valid. -/
structure Diagnostic.IsFit (registry : Registry) (d : Diagnostic) : Prop where
  labels : ∀ l ∈ d.labels, registry.contains l.file = true
  colors : ∀ l ∈ d.labels, ∀ c ∈ l.color, c.isValid = true
  location : ∀ l ∈ d.location, registry.contains l.file = true

/-! ## Look-ups -/

/-- What the report of a diagnostic looks up in a source is there. -/
structure Diagnostic.FindsAll (settings : Settings) (registry : Registry) (d : Diagnostic)
    (file : SourceId) (s : Source) : Prop where
  /-- The lines from the start of a label to its end. -/
  lines : ∀ p ∈ d.placements file s, s.lineRange? p.start p.stop = .ok (p.firstLine, p.lastLine)
  /-- The place of a label. -/
  places : ∀ p ∈ d.placements file s, ∃ place, s.location? p.start = .ok place
  /-- The place of the location. -/
  location : ∀ l ∈ d.location, ∀ o ∈ l.offset, ∃ place,
    s.location? (s.floorBoundary o) = .ok place
  /-- The lines that are shown. -/
  shown : ∀ line : Nat, .line line ∈ (Snippet.ofFile settings registry d file).window →
    ∃ l, s.line? line = .ok l

/-- The lines of a label are those of its repaired offsets. -/
theorem Placement.lineRange?_ofLabel (s : Source) (index : Nat) (label : Label) :
    let p := ofLabel s index label
    s.lineRange? p.start p.stop = .ok (p.firstLine, p.lastLine) := by
  intro p
  have hle : ∀ o : Nat, s.floorBoundary o ≤ s.length := fun o =>
    Source.le_length_of_isBoundary (s.isBoundary_floorBoundary o).1
  have hstart : p.start ≤ s.length := hle label.span.start
  have hstop : p.stop ≤ s.length := Nat.max_le.2 ⟨hle label.span.stop, hstart⟩
  have hlast : max ((p.stop : Int) - 1) p.start = (max (p.stop - 1) p.start : Nat) := by omega
  have hlast_le : max (p.stop - 1) p.start ≤ s.length := by omega
  rw [Source.lineRange?, hlast, Source.lineOf?_of_le hstart, Source.lineOf?_of_le hlast_le]
  rfl

/-- **A report finds everything** that it looks up in a registered source. -/
theorem Diagnostic.findsAll (settings : Settings) {registry : Registry} (d : Diagnostic)
    {file : SourceId} {s : Source} (hs : registry.source? file = some s) :
    d.FindsAll settings registry file s where
  lines p hp := by
    obtain ⟨index, label, rfl⟩ := exists_label_of_mem hp
    exact Placement.lineRange?_ofLabel s index label
  places p hp := by
    obtain ⟨index, label, rfl⟩ := exists_label_of_mem hp
    exact s.exists_location?_floorBoundary label.span.start
  location _ _ o _ := s.exists_location?_floorBoundary o
  shown line hline := by
    rw [Snippet.window_ofFile hs] at hline
    have hlt : line < s.lines.length := Window.stop_le_of_mem_ofLines
      (fun l hl => List.mem_range.1 (List.mem_filter.1 hl).1) hline
    exact ⟨s.lines[line], Source.line?_eq_ok_iff.2 ⟨line, rfl, List.getElem?_eq_getElem hlt⟩⟩

/-! ## Diagnostics without missing sources -/

/-- Every text can be printed, so that only the colors of the labels matter. -/
theorem Diagnostic.isIn_all {d : Diagnostic}
    (hcolors : ∀ l ∈ d.labels, ∀ c ∈ l.color, c.isValid = true) : d.IsIn .all where
  levelName := Text.isIn_all _
  code t _ := t.isIn_all
  message := Text.isIn_all _
  notes t _ := t.isIn_all
  messages _ _ t _ := t.isIn_all
  colors l hl c hc := Color.isShowable_of_isValid (hcolors l hl c hc)

namespace Diagnostic.IsFit

variable {registry : Registry} {d : Diagnostic} (h : d.IsFit registry)

include h

theorem isIn : d.IsIn .all := isIn_all h.colors

/-- The sources that are shown are registered. -/
theorem exists_source? : ∀ file ∈ d.files, ∃ s, registry.source? file = some s := by
  intro file hfile
  refine registry.contains_iff.1 ?_
  rw [files, mem_distinct, List.mem_append] at hfile
  rcases hfile with hfile | hfile
  · obtain ⟨l, hl, rfl⟩ := Option.map_eq_some_iff.1 (Option.mem_toList.1 hfile)
    exact h.location l hl
  · obtain ⟨l, hl, rfl⟩ := List.mem_map.1 hfile
    exact h.labels l hl

end Diagnostic.IsFit

namespace Report

variable {settings : Settings} {registry : Registry} {d : Diagnostic} {ds : List Diagnostic}

/-- **A report can be written** if its styles can. Only escape sequences ask for that. -/
theorem exists_write_of_styles {r : Report} {format : Format} {color : Bool}
    (h : format = .ansi → ∀ p ∈ r.pieces color, p.style.IsShowable) :
    ∃ out, r.write format color = .ok out := by
  have hpieces : ∀ p ∈ r.pieces color, ∃ out, p.write format = .ok out ∧ True := by
    intro p hp
    cases format with
    | plain => exact ⟨_, rfl, trivial⟩
    | ansi =>
      obtain ⟨out, hout, -⟩ := Ansi.exists_write_eq_ok (h rfl p hp) p.text
      exact ⟨out, hout, trivial⟩
    | html => exact ⟨_, rfl, trivial⟩
  obtain ⟨out, hout, -⟩ :=
    exists_write (R := fun _ _ => True) trivial (fun _ _ => trivial) hpieces
  exact ⟨out, hout⟩

/-- **The reports of such diagnostics** can be written in every format. -/
theorem exists_write_ofAll (htheme : settings.theme.IsValid) (hds : ∀ d ∈ ds, d.IsFit registry)
    (format : Format) (color : Bool) :
    ∃ out, (ofAll settings registry ds).write format color = .ok out := by
  have hin : (ofAll settings registry ds).IsIn .all :=
    isIn_ofAll htheme (fun e _ => e.shown.display.isIn_all) fun d hd => (hds d hd).isIn
  exact exists_write_of_styles fun _ p hp => (hin.pieces color p hp).1

theorem kind_ne_unavailable_ofDiagnostic (h : d.IsFit registry) :
    ∀ r ∈ (ofDiagnostic settings registry d).rows, r.kind ≠ .unavailable := by
  intro r hr hkind
  rcases part_of_mem_rows hr with ⟨_, -, hr⟩ | ⟨file, hfile, ⟨_, rfl⟩ | hr⟩ | ⟨_, hr⟩
  · obtain ⟨_, hk⟩ := exists_kind_headerRows hr
    rw [hkind] at hk
    cases hk
  · cases hkind
  · obtain ⟨s, hs⟩ := h.exists_source? file hfile
    rcases kind_of_mem_body hs hr with hk | hk <;> rw [hkind] at hk <;> cases hk
  · obtain ⟨_, _, hk⟩ := exists_kind_noteRows hr
    rw [hkind] at hk
    cases hk

/-- **No row stands for a missing source.** -/
theorem kind_ne_unavailable (hds : ∀ d ∈ ds, d.IsFit registry) :
    ∀ r ∈ (ofAll settings registry ds).rows, r.kind ≠ .unavailable := by
  intro r hr
  rcases exists_of_mem_rows_ofAll hr with rfl | ⟨d, hd, hr⟩
  · exact RowKind.noConfusion
  · exact kind_ne_unavailable_ofDiagnostic (hds d hd) r hr

/-- **Every issue** is about an offset behind the end of its source or inside a character. -/
theorem offset_of_mem_issues (hds : ∀ d ∈ ds, d.IsFit registry) :
    ∀ issue ∈ (ofAll settings registry ds).issues,
      (∃ given max, issue.flaw = .offset (.indexTooLarge given max)) ∨
        ∃ given, issue.flaw = .offset (.insideCharacter given) := by
  intro issue hissue
  obtain ⟨report, hreport, hissue⟩ := List.mem_flatMap.1 hissue
  obtain ⟨d, hd, rfl⟩ := List.mem_map.1 hreport
  rw [(issues_perm settings registry d (hds d hd).exists_source?).mem_iff] at hissue
  obtain ⟨o, -, hfix⟩ := List.mem_filterMap.1 hissue
  obtain ⟨s, -, htell⟩ := Option.bind_eq_some_iff.1 hfix
  obtain ⟨e, hfault, rfl⟩ := Option.map_eq_some_iff.1 htell
  rcases Source.fault?_eq_some hfault with ⟨rfl, -⟩ | ⟨rfl, -⟩
  · exact Or.inl ⟨_, _, rfl⟩
  · exact Or.inr ⟨_, rfl⟩

end Report

end SourceReport
