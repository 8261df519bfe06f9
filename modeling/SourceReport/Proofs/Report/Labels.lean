import Mathlib.Data.List.Nodup
import SourceReport.Proofs.Report.Body
import SourceReport.Proofs.Report.Carets

/-!
# Labels are shown once

A rich report has a part for every source of its diagnostic, and each label belongs to one of them.
If the source is missing, that is an issue for the label, and nothing of it is shown. Otherwise the
lines in which the label starts and ends are printed once, and below the latter its message.

* `Placement.IsShownIn` is what the rows for a source show of a label, `Report.AccountsFor` what a
  report makes of it.
* `Placement.SpeakInOrder` says that the messages below one line are in order.

Results:
* `Diagnostic.flatMap_labelsOf_perm`: the parts of a report share out the labels.
* `Snippet.IsLaidOut.isShownIn`, `Report.exists_rows_eq`, `Report.filter_issues`: what becomes of a
  label in its own part, in the other ones and among the issues.
* `Report.filter_source_body`: the rows that count as a line of a label are the row of that line.
* `Report.labels_shown_once`: all of this in every rich report.
-/

namespace SourceReport

/-- What the rows for a source show of a label in it. -/
structure Placement.IsShownIn (p : Placement) (rows : List Row) : Prop where
  /-- The line in which the label starts is printed once. -/
  first_once : rows.countP (fun r => r.kind = .source p.firstLine) = 1
  /-- So is the line in which it ends. -/
  last_once : rows.countP (fun r => r.kind = .source p.lastLine) = 1
  /-- A message is one block of rows. Only underlines and other messages stand between the last line
  and the message, which is shown nowhere else. -/
  speaks_once : p.hasMessage = true → ∃ above top between block below,
    rows = above ++ top :: (between ++ block ++ below) ∧ top.kind = .source p.lastLine ∧
    block.map Row.shown = p.block ∧
    (∀ r ∈ between, r.kind = .underline p.lastLine ∨ ∃ i n, r.kind = .message i n) ∧
    ∀ r ∈ above ++ between ++ below, ∀ n, r.kind ≠ .message p.index n
  /-- Without a message no row is taken for one. -/
  silent : p.hasMessage = false → ∀ r ∈ rows, ∀ n, r.kind ≠ .message p.index n

/-- Of any two labels that end in one line the messages stand one above the other, in order. -/
def Placement.SpeakInOrder (lanes : Lanes) (ps : List Placement) (rows : List Row) : Prop :=
  ∀ p ∈ ps, ∀ q ∈ ps, p ≠ q → p.hasMessage = true → q.hasMessage = true →
    p.lastLine = q.lastLine → (p.StandsAbove lanes q ∨ q.StandsAbove lanes p) ∧
      (p.StandsAbove lanes q → ∃ above upper between lower below,
        rows = above ++ upper ++ between ++ lower ++ below ∧ upper.map Row.shown = p.block ∧
        lower.map Row.shown = q.block)

/-! ## The labels of a snippet -/

namespace Snippet.IsLaidOut

variable {pen : Pen} {s : Snippet} {source : Source} (h : s.IsLaidOut)

include h

/-- **A line that is shown** has its rows in one place of the body. -/
theorem exists_bodyRows_eq (pen : Pen) (hsource : s.source = some source) {line : Nat}
    (hne : s.labels ≠ []) (hline : .line line ∈ s.window) :
    ∃ above below, bodyRows pen s = above ++ lineRows pen s source line ++ below ∧
      ∀ r ∈ above ++ below, r.kind ≠ .source line ∧
        ∀ q ∈ s.labels, q.lastLine = line → ∀ n, r.kind ≠ .message q.index n := by
  obtain ⟨before, after, hw⟩ := List.append_of_mem hline
  have hother : .line line ∉ before ++ after := by
    have hnodup := h.ascending.nodup
    rw [hw] at hnodup
    exact (List.nodup_cons.1 (List.nodup_middle.1 hnodup)).1
  refine ⟨pen.borders ++ before.flatMap (entryRows pen s source),
    after.flatMap (entryRows pen s source) ++ pen.borders, bodyRows_eq_of_window hsource hne hw,
    fun r hr => ?_⟩
  · have hcases : r.kind = .border ∨ r ∈ (before ++ after).flatMap (entryRows pen s source) := by
      simp only [List.mem_append, List.flatMap_append] at hr ⊢
      rcases hr with (hr | hr) | (hr | hr)
      · exact Or.inl (Pen.kind_of_mem_borders hr)
      · exact Or.inr (Or.inl hr)
      · exact Or.inr (Or.inr hr)
      · exact Or.inl (Pen.kind_of_mem_borders hr)
    rcases hcases with hborder | hr
    · rw [hborder]
      exact ⟨RowKind.noConfusion, fun _ _ _ _ => RowKind.noConfusion⟩
    · refine ⟨fun hkind => hother (h.exists_source_iff.1 ⟨r, hr, hkind⟩), ?_⟩
      intro q hq hlast n hkind
      obtain ⟨p, hp, hindex, -, hmem⟩ := h.exists_of_message_mem hr hkind
      rw [h.eq_of_index_eq hp hq hindex, hlast] at hmem
      exact hother hmem

/-- **The row of a line** is the only one in the body that is tagged with it. -/
theorem filter_source (hsource : s.source = some source) {line : Nat} (hne : s.labels ≠ [])
    (hline : .line line ∈ s.window) :
    (bodyRows pen s).filter (fun r => r.kind = .source line) =
      [sourceRow pen s line
        (.ofLine pen.settings.tabWidth ((source.lines[line]?.map (·.raw)).getD []))] := by
  obtain ⟨above, below, heq, hother⟩ := h.exists_bodyRows_eq pen hsource hne hline
  obtain ⟨display, underlines, messages, hrows, hunderlines, hshown⟩ :=
    h.exists_lineRows_eq pen source line
  have hnil : ∀ rows : List Row, (∀ r ∈ rows, r.kind ≠ .source line) →
      rows.filter (fun r => r.kind = .source line) = [] := by
    intro rows hrows
    refine List.filter_eq_nil_iff.2 fun r hr => ?_
    simpa using hrows r hr
  have hrest : ∀ r ∈ underlines ++ messages, r.kind ≠ .source line := by
    intro r hr
    rcases List.mem_append.1 hr with hr | hr
    · rw [hunderlines r hr]
      exact RowKind.noConfusion
    · obtain ⟨q, -, n, hn⟩ := exists_message_of_mem hshown hr
      rw [hn]
      exact RowKind.noConfusion
  have hfirst : sourceRow pen s line
      (.ofLine pen.settings.tabWidth ((source.lines[line]?.map (·.raw)).getD [])) =
        sourceRow pen s line display := List.head_eq_of_cons_eq hrows
  rw [heq, hrows, hfirst, List.filter_append, List.filter_append,
    hnil above fun r hr => (hother r (List.mem_append_left _ hr)).1,
    hnil below fun r hr => (hother r (List.mem_append_right _ hr)).1]
  have hkind : decide ((sourceRow pen s line display).kind = .source line) = true :=
    decide_eq_true rfl
  rw [List.filter_cons, if_pos hkind, hnil _ hrest]
  rfl

/-- A line is printed once. -/
theorem countP_source (hsource : s.source = some source) {line : Nat} (hne : s.labels ≠ [])
    (hline : .line line ∈ s.window) :
    (bodyRows pen s).countP (fun r => r.kind = .source line) = 1 := by
  rw [List.countP_eq_length_filter, h.filter_source hsource hne hline]
  rfl

/-- **A label is shown once** among the rows for its source. -/
theorem isShownIn (hsource : s.source = some source) {p : Placement} (hp : p ∈ s.labels) :
    p.IsShownIn (bodyRows pen s) := by
  have hne : s.labels ≠ [] := List.ne_nil_of_mem hp
  refine ⟨h.countP_source hsource hne (h.mem_window p hp _ (Or.inl rfl)),
    h.countP_source hsource hne (h.mem_window p hp _ (Or.inr rfl)), fun hmessage => ?_,
    fun hsilent r hr n hkind => ?_⟩
  · obtain ⟨above, below, heq, hother⟩ := h.exists_bodyRows_eq pen hsource hne
      (h.mem_window p hp _ (Or.inr rfl))
    obtain ⟨top, between, block, rest, hrows, htop, hblock, hrest⟩ :=
      h.exists_block_of_mem_speakers pen source (h.mem_speakers.2 ⟨hp, hmessage, rfl⟩)
    refine ⟨above, top, between, block, rest ++ below, ?_, htop, hblock, ?_, ?_⟩
    · rw [heq, hrows]
      simp only [List.append_assoc, List.cons_append]
    · intro r hr
      rcases hrest r (List.mem_append_left _ hr) with hr | ⟨i, n, -, hn⟩
      · exact Or.inl hr
      · exact Or.inr ⟨i, n, hn⟩
    · have hline : ∀ r ∈ between ++ rest, ∀ n, r.kind ≠ .message p.index n := by
        intro r hr n hkind
        rcases hrest r hr with hk | ⟨i, m, hi, hk⟩ <;> rw [hkind] at hk <;> cases hk
        exact hi rfl
      intro r hr n
      simp only [List.mem_append] at hr
      rcases hr with (hr | hr) | hr | hr
      · exact (hother r (List.mem_append_left _ hr)).2 p hp rfl n
      · exact hline r (List.mem_append_left _ hr) n
      · exact hline r (List.mem_append_right _ hr) n
      · exact (hother r (List.mem_append_right _ hr)).2 p hp rfl n
  · rw [bodyRows_eq hsource hne, List.mem_append, List.mem_append] at hr
    rcases hr with (hr | hr) | hr
    · rw [Pen.kind_of_mem_borders hr] at hkind
      cases hkind
    · obtain ⟨q, hq, hindex, hmessage, -⟩ := h.exists_of_message_mem hr hkind
      rw [h.eq_of_index_eq hq hp hindex, hsilent] at hmessage
      cases hmessage
    · rw [Pen.kind_of_mem_borders hr] at hkind
      cases hkind

/-- **The messages of a snippet** are in order. -/
theorem speakInOrder (pen : Pen) (hsource : s.source = some source) :
    Placement.SpeakInOrder s.lanes s.labels (bodyRows pen s) := by
  intro p hp q hq hne hpmessage hqmessage hlast
  have hpspeaks : p ∈ s.speakers q.lastLine := h.mem_speakers.2 ⟨hp, hpmessage, hlast⟩
  have hqspeaks : q ∈ s.speakers q.lastLine := h.mem_speakers.2 ⟨hq, hqmessage, rfl⟩
  constructor
  · have hpairs : (s.speakers q.lastLine).Pairwise fun p q =>
        p.StandsAbove s.lanes q ∨ q.StandsAbove s.lanes p :=
      (h.pairwise_speakers q.lastLine).imp Or.inl
    have hsymm : Std.Symm fun p q : Placement =>
        p.StandsAbove s.lanes q ∨ q.StandsAbove s.lanes p := ⟨fun _ _ hor => hor.symm⟩
    exact hpairs.forall hpspeaks hqspeaks hne
  · intro habove
    obtain ⟨above, below, heq, -⟩ := h.exists_bodyRows_eq pen hsource
      (List.ne_nil_of_mem hq) (h.mem_window q hq _ (Or.inr rfl))
    obtain ⟨front, upper, between, lower, back, hrows, hupper, hlower⟩ :=
      h.exists_blocks_of_standsAbove pen source hpspeaks hqspeaks habove
    refine ⟨above ++ front, upper, between, lower, back ++ below, ?_, hupper, hlower⟩
    rw [heq, hrows]
    simp only [List.append_assoc]

end Snippet.IsLaidOut

/-! ## The parts of a report -/

variable {settings : Settings} {registry : Registry} {d : Diagnostic} {file : SourceId}

theorem Snippet.file_ofFile (settings : Settings) (registry : Registry) (d : Diagnostic)
    (file : SourceId) : (ofFile settings registry d file).file = file := by
  unfold ofFile
  dsimp only
  split <;> rfl

theorem Snippet.map_file_ofDiagnostic (settings : Settings) (registry : Registry)
    (d : Diagnostic) : (ofDiagnostic settings registry d).map (·.file) = d.files := by
  rw [ofDiagnostic, List.map_map]
  exact (List.map_congr_left fun file _ => file_ofFile settings registry d file).trans
    (List.map_id' _)

/-- **The parts of a report share out the labels** of its diagnostic. -/
theorem Diagnostic.flatMap_labelsOf_perm (d : Diagnostic) :
    (d.files.flatMap (Snippet.labelsOf d)).Perm d.labels.zipIdx := by
  have hlabels : d.labels.zipIdx.Nodup := by
    refine List.Nodup.of_map Prod.snd ?_
    rw [List.zipIdx_map_snd]
    exact List.nodup_range'
  have hparts : (d.files.flatMap (Snippet.labelsOf d)).Nodup := by
    refine List.nodup_flatMap.2 ⟨fun file _ => hlabels.filter _, ?_⟩
    refine d.nodup_files.imp fun {a b} hne => ?_
    rintro ⟨label, index⟩ ha hb
    exact hne ((Snippet.mem_labelsOf.1 ha).2.symm.trans (Snippet.mem_labelsOf.1 hb).2)
  refine (List.perm_ext_iff_of_nodup hparts hlabels).2 fun ⟨label, index⟩ => ?_
  rw [List.mem_flatMap, List.mem_zipIdx_iff_getElem?]
  constructor
  · rintro ⟨file, -, hmem⟩
    exact (Snippet.mem_labelsOf.1 hmem).1
  · intro hlabel
    exact ⟨label.file, mem_files (List.mem_of_getElem? hlabel),
      Snippet.mem_labelsOf.2 ⟨hlabel, rfl⟩⟩

namespace Report

/-- The rows for a source. -/
def body (settings : Settings) (registry : Registry) (d : Diagnostic) (file : SourceId) :
    List Row :=
  Snippet.bodyRows (pen settings registry d) (.ofFile settings registry d file)

/-- Messages stand in the part for the source of their label. -/
theorem exists_label_of_message_mem {r : Row} (hr : r ∈ body settings registry d file) {i n : Nat}
    (hkind : r.kind = .message i n) : ∃ label, d.labels[i]? = some label ∧ label.file = file := by
  unfold body at hr
  cases hs : registry.source? file with
  | none =>
    have hsource : (Snippet.ofFile settings registry d file).source = none := by
      simp only [Snippet.ofFile, hs]
    rcases Snippet.kind_of_mem_bodyRows_of_none hsource hr with hk | hk <;>
      rw [hkind] at hk <;> cases hk
  | some s =>
    have hlaid := Snippet.isLaidOut_ofFile settings d hs
    have hsource : (Snippet.ofFile settings registry d file).source = some s :=
      Snippet.source_ofFile hs
    by_cases hne : (Snippet.ofFile settings registry d file).labels = []
    · simp [Snippet.bodyRows, hsource, hne] at hr
    · rw [Snippet.bodyRows_eq hsource hne, List.mem_append, List.mem_append] at hr
      rcases hr with (hr | hr) | hr
      · rw [Pen.kind_of_mem_borders hr] at hkind
        cases hkind
      · obtain ⟨p, hp, rfl, -⟩ := hlaid.exists_of_message_mem hr hkind
        rw [Snippet.labels_ofFile hs] at hp
        obtain ⟨⟨label, index⟩, hmem, rfl⟩ := List.mem_map.1 hp
        exact ⟨label, Snippet.mem_labelsOf.1 hmem⟩
      · rw [Pen.kind_of_mem_borders hr] at hkind
        cases hkind

/-- The part of a report for a source: its name and the rows for it. -/
def part (settings : Settings) (registry : Registry) (d : Diagnostic) (e : SourceId × Nat) :
    List Row :=
  locatorRow (pen settings registry d) (e.2 = 0) (.ofFile settings registry d e.1) ::
    body settings registry d e.1

theorem allRows_eq (settings : Settings) (registry : Registry) (d : Diagnostic) :
    Snippet.allRows (pen settings registry d) (Snippet.ofDiagnostic settings registry d) =
      d.files.zipIdx.flatMap (part settings registry d) := by
  rw [Snippet.allRows, Snippet.ofDiagnostic, List.zipIdx_map, List.flatMap_map]
  rfl

/-- Each source has one part. -/
theorem exists_allRows_eq (settings : Settings) (registry : Registry) {d : Diagnostic}
    (hfile : file ∈ d.files) :
    ∃ above below,
      Snippet.allRows (pen settings registry d) (Snippet.ofDiagnostic settings registry d) =
        above ++ body settings registry d file ++ below ∧
      ∀ r ∈ above ++ below, r.kind = .locator ∨
        ∃ other, other ≠ file ∧ r ∈ body settings registry d other := by
  obtain ⟨n, hn⟩ := List.getElem?_of_mem hfile
  have hzip : (file, n) ∈ d.files.zipIdx := List.mem_zipIdx_iff_getElem?.2 hn
  obtain ⟨before, after, hsplit⟩ := List.append_of_mem hzip
  have hnodup : (d.files.zipIdx.map Prod.fst).Nodup := by
    rw [List.zipIdx_map_fst]
    exact d.nodup_files
  rw [hsplit, List.map_append, List.map_cons, List.nodup_middle, ← List.map_append] at hnodup
  refine ⟨before.flatMap (part settings registry d) ++
      [locatorRow (pen settings registry d) (n = 0) (.ofFile settings registry d file)],
    after.flatMap (part settings registry d), ?_, fun r hr => ?_⟩
  · rw [allRows_eq, hsplit, List.flatMap_append, List.flatMap_cons, part]
    simp only [List.append_assoc, List.cons_append, List.nil_append]
  · have hcases : r.kind = .locator ∨ r ∈ (before ++ after).flatMap (part settings registry d) := by
      simp only [List.mem_append, List.flatMap_append, List.mem_singleton] at hr ⊢
      rcases hr with (hr | rfl) | hr
      · exact Or.inr (Or.inl hr)
      · exact Or.inl rfl
      · exact Or.inr (Or.inr hr)
    rcases hcases with hlocator | hmem
    · exact Or.inl hlocator
    · obtain ⟨e, he, hr⟩ := List.mem_flatMap.1 hmem
      rcases List.mem_cons.1 hr with rfl | hr
      · exact Or.inl rfl
      · refine Or.inr ⟨e.1, ?_, hr⟩
        rintro rfl
        exact (List.nodup_cons.1 hnodup).1 (List.mem_map.2 ⟨e, he, rfl⟩)

/-- **The rows for a source** stand in one place of the report. The other rows are no rows of the
messages of its labels. -/
theorem exists_rows_eq (registry : Registry) (hrich : settings.detail = .rich)
    (hfile : file ∈ d.files) :
    ∃ above below, (ofDiagnostic settings registry d).rows =
        above ++ body settings registry d file ++ below ∧
      ∀ i label, d.labels[i]? = some label → label.file = file →
        ∀ r ∈ above ++ below, ∀ n, r.kind ≠ .message i n := by
  obtain ⟨above, below, heq, hother⟩ := exists_allRows_eq settings registry hfile
  refine ⟨headerRows settings.theme [] d ++ above,
    below ++ noteRows (pen settings registry d) ((pen settings registry d).digits + 1) d.notes,
    ?_, ?_⟩
  · rw [rows_ofDiagnostic settings hrich, heq]
    simp only [List.append_assoc]
  · rintro i label hlabel rfl r hr n hkind
    have hcases : (∃ part, r.kind = .header part) ∨ (∃ index part, r.kind = .note index part) ∨
        r ∈ above ++ below := by
      simp only [List.mem_append] at hr ⊢
      rcases hr with (hr | hr) | hr | hr
      · exact Or.inl (exists_kind_headerRows hr)
      · exact Or.inr (Or.inr (Or.inl hr))
      · exact Or.inr (Or.inr (Or.inr hr))
      · exact Or.inr (Or.inl (exists_kind_noteRows hr))
    rcases hcases with ⟨_, hk⟩ | ⟨_, _, hk⟩ | hr
    · rw [hkind] at hk
      cases hk
    · rw [hkind] at hk
      cases hk
    · rcases hother r hr with hk | ⟨other, hne, hr⟩
      · rw [hkind] at hk
        cases hk
      · obtain ⟨label', hlabel', rfl⟩ := exists_label_of_message_mem hr hkind
        rw [hlabel, Option.some.injEq] at hlabel'
        exact hne (by rw [hlabel'])

/-! ## Missing sources -/

theorem mem_issues {i : Nat} {issue : Issue} (h : issue ∈ Snippet.issues registry d file)
    (hlabel : issue.label = some i) : ∃ label, (label, i) ∈ Snippet.labelsOf d file := by
  unfold Snippet.issues at h
  dsimp only at h
  split at h
  · obtain ⟨⟨label, index⟩, hmem, hissue⟩ := List.mem_flatMap.1 h
    obtain ⟨offset, -, he⟩ := List.mem_filterMap.1 hissue
    obtain ⟨e, -, rfl⟩ := Option.map_eq_some_iff.1 he
    obtain rfl := Option.some.inj hlabel
    exact ⟨label, hmem⟩
  · split at h
    · rw [List.mem_singleton.1 h] at hlabel
      cases hlabel
    · obtain ⟨⟨label, index⟩, hmem, rfl⟩ := List.mem_map.1 h
      obtain rfl := Option.some.inj hlabel
      exact ⟨label, hmem⟩

theorem issues_of_missing (hmissing : registry.source? file = none)
    (hne : Snippet.labelsOf d file ≠ []) :
    Snippet.issues registry d file =
      (Snippet.labelsOf d file).map fun e => ⟨file, some e.2, .unregistered⟩ := by
  unfold Snippet.issues
  rw [hmissing]
  dsimp only
  split
  · next hnil => exact absurd hnil hne
  · rfl

/-- Of elements with different keys one has a key of theirs. -/
theorem filter_eq_singleton {α β : Type} [DecidableEq β] {f : α → β} {xs : List α} {x : α}
    (hnodup : (xs.map f).Nodup) (hx : x ∈ xs) : xs.filter (fun y => f y = f x) = [x] := by
  obtain ⟨before, after, rfl⟩ := List.append_of_mem hx
  rw [List.map_append, List.map_cons, List.nodup_middle, ← List.map_append] at hnodup
  have hnil : ∀ ys : List α, (∀ y ∈ ys, y ∈ before ++ after) →
      ys.filter (fun y => f y = f x) = [] := by
    intro ys hys
    refine List.filter_eq_nil_iff.2 fun y hy heq => ?_
    exact (List.nodup_cons.1 hnodup).1
      (List.mem_map.2 ⟨y, hys y hy, of_decide_eq_true heq⟩)
  rw [List.filter_append, hnil before fun y hy => List.mem_append_left _ hy,
    List.filter_cons_of_pos (by simp),
    hnil after fun y hy => List.mem_append_right _ hy]
  rfl

/-- **The issues of a label** whose source is missing: just that one. -/
theorem filter_issues (settings : Settings) {i : Nat} {label : Label}
    (hlabel : d.labels[i]? = some label) (hmissing : registry.source? label.file = none) :
    (ofDiagnostic settings registry d).issues.filter (fun issue => issue.label = some i) =
      [⟨label.file, some i, .unregistered⟩] := by
  have hmem : (label, i) ∈ Snippet.labelsOf d label.file :=
    Snippet.mem_labelsOf.2 ⟨hlabel, rfl⟩
  have hown : (Snippet.issues registry d label.file).filter (fun issue => issue.label = some i) =
      [⟨label.file, some i, .unregistered⟩] := by
    have heq := issues_of_missing hmissing (List.ne_nil_of_mem hmem)
    have hnodup : ((Snippet.issues registry d label.file).map (·.label)).Nodup := by
      have hsome := (Snippet.nodup_labelsOf d label.file).map fun _ _ => Option.some.inj
      rw [heq, List.map_map]
      rwa [List.map_map] at hsome
    have hissue : (⟨label.file, some i, .unregistered⟩ : Issue) ∈
        Snippet.issues registry d label.file := by
      rw [heq]
      exact List.mem_map.2 ⟨(label, i), hmem, rfl⟩
    exact filter_eq_singleton hnodup hissue
  have hother : ∀ file, file ≠ label.file →
      (Snippet.issues registry d file).filter (fun issue => issue.label = some i) = [] := by
    intro file hne
    refine List.filter_eq_nil_iff.2 fun issue hissue heq => ?_
    obtain ⟨label', hmem'⟩ := mem_issues hissue (of_decide_eq_true heq)
    obtain ⟨hlabel', rfl⟩ := Snippet.mem_labelsOf.1 hmem'
    rw [hlabel, Option.some.injEq] at hlabel'
    exact hne (by rw [hlabel'])
  obtain ⟨before, after, hsplit⟩ := List.append_of_mem
    (Diagnostic.mem_files (List.mem_of_getElem? hlabel))
  have hnodup := d.nodup_files
  rw [hsplit, List.nodup_middle] at hnodup
  have hnil : ∀ files : List SourceId, (∀ file ∈ files, file ∈ before ++ after) →
      (files.flatMap fun file => (Snippet.issues registry d file).filter
        (fun issue => issue.label = some i)) = [] := by
    intro files hfiles
    refine List.flatMap_eq_nil_iff.2 fun file hfile => hother file ?_
    rintro rfl
    exact (List.nodup_cons.1 hnodup).1 (hfiles _ hfile)
  rw [ofDiagnostic, hsplit, List.filter_flatMap, List.flatMap_append, List.flatMap_cons, hown,
    hnil before fun _ h => List.mem_append_left _ h,
    hnil after fun _ h => List.mem_append_right _ h]
  rfl

/-! ## Reports -/

/-- What a report makes of a label. -/
structure AccountsFor (settings : Settings) (registry : Registry) (d : Diagnostic) (i : Nat)
    (label : Label) : Prop where
  /-- The rows for its source stand in one place, and its message stands nowhere else. -/
  placed : ∃ above below, (ofDiagnostic settings registry d).rows =
    above ++ body settings registry d label.file ++ below ∧
      ∀ r ∈ above ++ below, ∀ n, r.kind ≠ .message i n
  /-- It is shown if its source is there. -/
  shown : ∀ s, registry.source? label.file = some s →
    (Placement.ofLabel s i label).IsShownIn (body settings registry d label.file)
  /-- Otherwise it has one issue, and nothing of its source is shown. -/
  missing : registry.source? label.file = none →
    (ofDiagnostic settings registry d).issues.filter (fun issue => issue.label = some i) =
        [⟨label.file, some i, .unregistered⟩] ∧
      ∀ r ∈ body settings registry d label.file, r.kind = .border ∨ r.kind = .unavailable

theorem ofLabel_mem_labels {i : Nat} {label : Label} (hlabel : d.labels[i]? = some label)
    {s : Source} (hs : registry.source? label.file = some s) :
    Placement.ofLabel s i label ∈ (Snippet.ofFile settings registry d label.file).labels := by
  rw [Snippet.labels_ofFile hs]
  exact List.mem_map.2 ⟨(label, i), Snippet.mem_labelsOf.2 ⟨hlabel, rfl⟩, rfl⟩

theorem accountsFor (hrich : settings.detail = .rich) {i : Nat} {label : Label}
    (hlabel : d.labels[i]? = some label) : AccountsFor settings registry d i label := by
  have hfile : label.file ∈ d.files := Diagnostic.mem_files (List.mem_of_getElem? hlabel)
  refine ⟨?_, fun s hs => ?_, fun hmissing => ⟨filter_issues settings hlabel hmissing, ?_⟩⟩
  · obtain ⟨above, below, heq, hother⟩ := exists_rows_eq registry hrich hfile
    exact ⟨above, below, heq, hother i label hlabel rfl⟩
  · exact (Snippet.isLaidOut_ofFile settings d hs).isShownIn (Snippet.source_ofFile hs)
      (ofLabel_mem_labels hlabel hs)
  · intro r hr
    refine Snippet.kind_of_mem_bodyRows_of_none ?_ hr
    simp only [Snippet.ofFile, hmissing]

/-- **The rows that count for a label** show the lines in which it starts and ends: each of these
lines is in the source, and its one row is the row of that line. -/
theorem filter_source_body {i : Nat} {label : Label} (hlabel : d.labels[i]? = some label)
    (hs : registry.source? label.file = some s) {line : Nat}
    (hline : line = (Placement.ofLabel s i label).firstLine ∨
      line = (Placement.ofLabel s i label).lastLine) :
    ∃ l, s.lines[line]? = some l ∧
      (body settings registry d label.file).filter (fun r => r.kind = .source line) =
        [Snippet.sourceRow (pen settings registry d) (.ofFile settings registry d label.file) line
          (.ofLine settings.tabWidth l.raw)] := by
  have hlaid := Snippet.isLaidOut_ofFile settings d hs
  have hp : Placement.ofLabel s i label ∈ (Snippet.ofFile settings registry d label.file).labels :=
    ofLabel_mem_labels hlabel hs
  obtain ⟨l, hl⟩ : ∃ l, s.lines[line]? = some l := by
    rcases hline with rfl | rfl
    · exact Placement.exists_firstLine s i label
    · exact Placement.exists_lastLine s i label
  refine ⟨l, hl, (hlaid.filter_source (Snippet.source_ofFile hs) (List.ne_nil_of_mem hp)
    (hlaid.mem_window _ hp line hline)).trans ?_⟩
  rw [hl]
  rfl

/-- **No label is lost or shown twice.** The parts of a rich report share out the labels. Those of a
source that is there are shown once, with their messages in order below the lines where they end;
a missing source is an issue for each of its labels. -/
theorem labels_shown_once (settings : Settings) (registry : Registry) (d : Diagnostic)
    (hrich : settings.detail = .rich) :
    (Snippet.ofDiagnostic settings registry d).map (·.file) = d.files ∧ d.files.Nodup ∧
      (d.files.flatMap (Snippet.labelsOf d)).Perm d.labels.zipIdx ∧
      (∀ i label, d.labels[i]? = some label → AccountsFor settings registry d i label) ∧
      ∀ file s, registry.source? file = some s →
        Placement.SpeakInOrder (.assign (d.placements file s)) (d.placements file s)
          (body settings registry d file) := by
  refine ⟨Snippet.map_file_ofDiagnostic settings registry d, d.nodup_files,
    d.flatMap_labelsOf_perm, fun i label => accountsFor hrich, fun file s hs => ?_⟩
  have hlaid := Snippet.isLaidOut_ofFile settings d hs
  have horder := hlaid.speakInOrder (pen settings registry d) (Snippet.source_ofFile hs)
  rwa [hlaid.lanes, Snippet.labels_ofFile hs] at horder

/-- Two labels end in one line, and a third one has no source. The message of the label of one line
comes first, and that of the third label is not shown. -/
theorem labels_shown_once_three :
    let s : Source := ⟨.snippet "a", "ab\ncd\n", by decide, ⟨1⟩, false⟩
    let upper : Label := { span := ⟨⟨1⟩, 3, 4, by decide, by decide⟩, message := some "x" }
    let lower : Label := { span := ⟨⟨1⟩, 0, 5, by decide, by decide⟩, message := some "y\nz" }
    let lost : Label := { span := ⟨⟨7⟩, 0, 1, by decide, by decide⟩, message := some "w" }
    let d : Diagnostic := { level := .error, labels := [lower, lost, upper] }
    let r := ofDiagnostic {} ⟨[⟨s, s.name, none⟩]⟩ d
    ({} : Settings).detail = .rich ∧
      r.issues.filter (fun issue => issue.label = some 1) = [⟨⟨7⟩, some 1, .unregistered⟩] ∧
      (∃ above below, r.rows = above ++ body {} ⟨[⟨s, s.name, none⟩]⟩ d ⟨7⟩ ++ below ∧
        ∀ row ∈ above ++ below, ∀ n, row.kind ≠ .message 1 n) ∧
      ∃ above first between second below, body {} ⟨[⟨s, s.name, none⟩]⟩ d ⟨1⟩ =
          above ++ first ++ between ++ second ++ below ∧
        first.map Row.shown = [(RowKind.message 2 0, (" x" : Text))] ∧
        second.map Row.shown =
          [(RowKind.message 0 0, ("y" : Text)), (RowKind.message 0 1, ("z" : Text))] := by
  intro s upper lower lost d r
  obtain ⟨-, -, -, hlabels, horder⟩ := labels_shown_once {} ⟨[⟨s, s.name, none⟩]⟩ d rfl
  have hlost := hlabels 1 lost rfl
  have hplaced : Placement.ofLabel s 2 upper ∈ d.placements ⟨1⟩ s ∧
      Placement.ofLabel s 0 lower ∈ d.placements ⟨1⟩ s := by decide +kernel
  have hline : (Placement.ofLabel s 2 upper).lastLine = (Placement.ofLabel s 0 lower).lastLine ∧
      (Placement.ofLabel s 2 upper).isMultiline = false ∧
      (Placement.ofLabel s 0 lower).isMultiline = true := by decide +kernel
  have hne : Placement.ofLabel s 2 upper ≠ Placement.ofLabel s 0 lower := by decide +kernel
  obtain ⟨-, hblocks⟩ := horder ⟨1⟩ s rfl _ hplaced.1 _ hplaced.2 hne rfl rfl hline.1
  have habove : (Placement.ofLabel s 2 upper).StandsAbove (.assign (d.placements ⟨1⟩ s))
      (Placement.ofLabel s 0 lower) := by
    rw [Placement.StandsAbove, hline.2.1, hline.2.2]
    trivial
  obtain ⟨above, first, between, second, below, heq, hfirst, hsecond⟩ := hblocks habove
  refine ⟨rfl, (hlost.missing rfl).1, hlost.placed, above, first, between, second, below, heq, ?_,
    ?_⟩
  · rw [hfirst]
    decide +kernel
  · rw [hsecond]
    decide +kernel

end Report

end SourceReport
