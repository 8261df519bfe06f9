import SourceReport.Proofs.Report.Crossing

/-!
# Reports with gaps and with crossings

The setting for crossings chooses a glyph for the cells where runs pass over connectors. Nothing
else of a report depends on it: row by row, what is written has the same styles and lengths, and it
differs in these cells alone.

Results:
* `Snippet.IsLaidOut.crossesAs_lineRows`, `crossesAs_bodyRows`: the rows of a snippet in both forms.
* `Report.gaps_differ_at_crossings`: all reports in both forms.
-/

namespace SourceReport

namespace Snippet

variable (pen : Pen) {s : Snippet} {source : Source} {line lane : Nat} {p : Placement}

/-! ## Rows -/

/-- The rows of a message, of which the first one may cross. -/
theorem crossesAs_messageRows {crosses : RowKind → Nat → Prop} {start : Nat} (column : Nat)
    {inMargin inCells : Nat → Prop} {margin margin' margins cells cells' cellsBelow : List Cell}
    (hstart : start = pen.digits + 3) (hcolumn : start + margin.length = column)
    (hmargin : DiffersAt (Cell.CrossesAs pen.glyphs) inMargin margin margin')
    (hcells : DiffersAt (Cell.CrossesAs pen.glyphs) inCells cells cells')
    (hfirst : ∀ n, crosses (.message p.index 0) n ↔ (∃ cell, inMargin cell ∧ n = start + cell) ∨
      ∃ cell, inCells cell ∧ n = column + cell)
    (hrest : ∀ i n, ¬ crosses (.message p.index (i + 1)) n) (lead : Text) :
    List.Forall₂ (Row.CrossesAs pen.glyphs crosses)
      (messageRows (pen.withCrossGap true) p margin margins cells cellsBelow lead)
      (messageRows (pen.withCrossGap false) p margin' margins cells' cellsBelow lead) := by
  have hgutter : (runsText (pen.gutter none)).length = start := by
    rw [hstart]
    exact pen.length_gutter fun n hn => by cases hn
  unfold messageRows
  cases p.messageRows with
  | nil => exact List.Forall₂.nil
  | cons t more =>
    rw [List.mapIdx_cons, List.mapIdx_cons]
    refine .cons
      (Row.crossesAs_of_differsAt pen rfl rfl rfl hgutter hcolumn hmargin hcells hfirst) ?_
    refine Row.CrossesAs.refl_list pen.glyphs fun r hr => ?_
    obtain ⟨i, hi, rfl⟩ := List.mem_mapIdx.1 hr
    exact hrest i

namespace IsLaidOut

variable (h : s.IsLaidOut)

include h

/-- **The messages of labels of one line**, from one of them on. -/
theorem crossesAs_markMessages {l : Line} {margin : List Cell} {column : Nat}
    (hsource : s.source = some source) (hline : source.lines[line]? = some l)
    (hmargin : margin.length = s.lanes.marginSize)
    (hcolumn : ∀ q ∈ Placement.messageOrder (s.labelsOn line),
      (q.underlined pen.settings l.raw).attach < column)
    {earlier ps : List Placement}
    (hsplit : Placement.messageOrder (s.labelsOn line) = earlier ++ ps) :
    List.Forall₂ (Row.CrossesAs pen.glyphs (s.Crosses pen))
      (markMessages (pen.withCrossGap true) margin column
        (.ofLabels pen (.ofLine pen.settings.tabWidth l.raw) ps))
      (markMessages (pen.withCrossGap false) margin column
        (.ofLabels pen (.ofLine pen.settings.tabWidth l.raw) ps)) := by
  induction ps generalizing earlier with
  | nil => exact List.Forall₂.nil
  | cons p later ih =>
    have hmore : Placement.messageOrder (s.labelsOn line) = earlier ++ [p] ++ later := by
      rw [hsplit, List.append_assoc, List.singleton_append]
    refine List.rel_append ?_ (ih hmore)
    refine crossesAs_messageRows pen (pen.leadWidth s.lanes) rfl
      (by rw [hmargin, Pen.leadWidth]) (DiffersAt.refl (fun _ hn => hn) margin)
      (Marks.differsAt_connectors pen column _ p _ fun m hm => ?_) (fun n => ?_)
      (fun _ _ => not_crosses pen (fun _ => RowKind.noConfusion) fun _ hkind => by
        injection hkind with _ hzero
        cases hzero) " "
    · obtain ⟨q, hq, rfl⟩ := List.mem_map.1 hm
      exact hcolumn q (by rw [hsplit]; simp [hq])
    · rw [h.crosses_mark_iff pen hsource hline hsplit]
      simp only [false_and, exists_false, false_or]
      refine exists_congr fun cell => and_congr_left fun _ => and_congr_right fun _ => ?_
      exact (Marks.attaches_ofLabels_iff pen).symm

/-- **The messages of labels of several lines**, from one of them on. -/
theorem crossesAs_endingMessages {earlier rest : Lanes}
    (hsplit : s.endings line = earlier ++ rest) :
    List.Forall₂ (Row.CrossesAs pen.glyphs (s.Crosses pen))
      (endingMessages (pen.withCrossGap true) s line rest)
      (endingMessages (pen.withCrossGap false) s line rest) := by
  induction rest generalizing earlier with
  | nil => exact List.Forall₂.nil
  | cons e later ih =>
    obtain ⟨p, lane⟩ := e
    obtain ⟨hp, hlast, -⟩ : (p, lane) ∈ s.lanes ∧ p.lastLine = line ∧ p.hasMessage = true :=
      mem_endings.1 (by rw [hsplit]; simp)
    have hpending : ∀ q ∈ later.map (·.1), ∃ k, (q, k) ∈ s.lanes ∧ k < lane := by
      have hdescending := h.pairwise_endings line
      rw [hsplit] at hdescending
      obtain ⟨-, hbelow, -⟩ := List.pairwise_append.1 hdescending
      intro q hq
      obtain ⟨e, he, rfl⟩ := List.mem_map.1 hq
      have hmem : e ∈ s.endings line := by rw [hsplit]; simp [he]
      exact ⟨e.2, (mem_endings.1 hmem).1, (List.pairwise_cons.1 hbelow).1 e he⟩
    have hmore : s.endings line = earlier ++ [(p, lane)] ++ later := by
      rw [hsplit, List.append_assoc, List.singleton_append]
    refine List.rel_append ?_ (ih hmore)
    refine crossesAs_messageRows pen (pen.leadWidth s.lanes) rfl ?_
      (h.differsAt_messageMargin pen hp hlast hpending) (DiffersAt.refl (fun _ hn => hn) [])
      (fun n => ?_)
      (fun _ _ => not_crosses pen (fun _ => RowKind.noConfusion) fun _ hkind => by
        injection hkind with _ hzero
        cases hzero) []
    · rw [messageMargin, List.length_map, List.length_range, Pen.leadWidth]
    · rw [h.crosses_ending_iff pen hp]
      simp

/-- **The row of a source line.** -/
theorem crossesAs_sourceRow (hfits : (Text.ofNat (line + 1)).length ≤ pen.digits)
    (display : DisplayLine) :
    (sourceRow (pen.withCrossGap true) s line display).CrossesAs pen.glyphs (s.Crosses pen)
      (sourceRow (pen.withCrossGap false) s line display) := by
  have hgutter : (runsText (pen.gutter (some (line + 1)))).length = pen.digits + 3 :=
    pen.length_gutter fun n hn => by rwa [← Option.some.inj hn]
  refine Row.crossesAs_of_differsAt pen rfl rfl rfl hgutter rfl
    (h.differsAt_sourceMargin pen line) (DiffersAt.refl (fun _ hn => hn) []) fun n => ?_
  refine (crosses_source_iff pen).trans ?_
  simp

/-- **The underlines and messages of the labels of one line.** -/
theorem crossesAs_markRows (hsource : s.source = some source) {raw : Text}
    (hlines : s.labelsOn line ≠ [] → ∃ l, source.lines[line]? = some l ∧ l.raw = raw)
    (pending : List Placement) :
    List.Forall₂ (Row.CrossesAs pen.glyphs (s.Crosses pen))
      (markRows (pen.withCrossGap true) s line pending
        (.ofLabels pen (.ofLine pen.settings.tabWidth raw) (s.labelsOn line)))
      (markRows (pen.withCrossGap false) s line pending
        (.ofLabels pen (.ofLine pen.settings.tabWidth raw) (s.labelsOn line))) := by
  unfold markRows
  split
  · exact List.Forall₂.nil
  · next hne =>
    obtain ⟨l, hl, rfl⟩ := hlines fun hnil => hne (by rw [hnil]; rfl)
    dsimp only
    rw [Marks.withMessages_ofLabels]
    refine .cons (Row.CrossesAs.refl pen.glyphs (r := underlineRow pen s line pending _) fun n =>
      not_crosses pen (fun _ => RowKind.noConfusion) fun _ => RowKind.noConfusion) ?_
    refine h.crossesAs_markMessages pen hsource hl ?_ (fun q hq => ?_) (List.nil_append _).symm
    · rw [betweenMargin, List.length_map, List.length_range]
    · have hle := Marks.le_messageColumn (List.mem_map.2 ⟨q, hq, rfl⟩ :
        (q, _) ∈ Marks.ofLabels pen (.ofLine pen.settings.tabWidth l.raw)
          (Placement.messageOrder (s.labelsOn line)))
      exact Nat.lt_of_lt_of_le (Nat.lt_add_of_pos_right (by decide)) hle

/-- **The rows of a line.** -/
theorem crossesAs_lineRows (hsource : s.source = some source)
    (hlines : s.labelsOn line ≠ [] → ∃ l, source.lines[line]? = some l)
    (hfits : (Text.ofNat (line + 1)).length ≤ pen.digits) :
    List.Forall₂ (Row.CrossesAs pen.glyphs (s.Crosses pen))
      (lineRows (pen.withCrossGap true) s source line)
      (lineRows (pen.withCrossGap false) s source line) := by
  refine List.rel_append (.cons (h.crossesAs_sourceRow pen hfits _)
    (h.crossesAs_markRows pen hsource (fun hne => ?_) _))
    (h.crossesAs_endingMessages pen (List.nil_append _).symm)
  obtain ⟨l, hl⟩ := hlines hne
  exact ⟨l, hl, by rw [hl]; rfl⟩

/-- **The body of a snippet.** -/
theorem crossesAs_bodyRows (hsource : s.source = some source)
    (hlines : ∀ line, s.labelsOn line ≠ [] → ∃ l, source.lines[line]? = some l)
    (hfits : ∀ line, .line line ∈ s.window → (Text.ofNat (line + 1)).length ≤ pen.digits) :
    List.Forall₂ (Row.CrossesAs pen.glyphs (s.Crosses pen))
      (bodyRows (pen.withCrossGap true) s) (bodyRows (pen.withCrossGap false) s) := by
  have hborders (gap : Bool) : (pen.withCrossGap gap).borders = pen.borders := rfl
  by_cases hne : s.labels = []
  · have hnil (gap : Bool) : bodyRows (pen.withCrossGap gap) s = [] := by
      simp [bodyRows, hsource, hne]
    rw [hnil, hnil]
    exact List.Forall₂.nil
  · have hborder : List.Forall₂ (Row.CrossesAs pen.glyphs (s.Crosses pen)) pen.borders
        pen.borders := by
      refine Row.CrossesAs.refl_list pen.glyphs fun r hr n => ?_
      rw [Pen.kind_of_mem_borders hr]
      exact not_crosses pen (fun _ => RowKind.noConfusion) fun _ => RowKind.noConfusion
    rw [bodyRows_eq hsource hne, bodyRows_eq hsource hne, hborders, hborders]
    refine List.rel_append (List.rel_append hborder (forall₂_flatMap fun e he => ?_)) hborder
    cases e with
    | line line => exact h.crossesAs_lineRows pen hsource (hlines line) (hfits line he)
    | skipped first count =>
      exact .cons (Row.CrossesAs.refl pen.glyphs (r := skippedRow pen s first count) fun n =>
        not_crosses pen (fun _ => RowKind.noConfusion) fun _ => RowKind.noConfusion) .nil

end IsLaidOut

end Snippet

/-- In place of a missing source nothing crosses. -/
theorem Snippet.bodyRows_withCrossGap_of_missing (pen : Pen) {s : Snippet} (h : s.source = none)
    (gap : Bool) : bodyRows (pen.withCrossGap gap) s = bodyRows pen s := by
  unfold bodyRows
  rw [h]
  rfl

/-! ## Reports -/

namespace Report

variable (settings : Settings) (registry : Registry) (d : Diagnostic)

theorem pen_withCrossGap (gap : Bool) :
    pen (settings.withCrossGap gap) registry d = (pen settings registry d).withCrossGap gap := by
  unfold pen
  rw [labelStyles_congr settings (settings.withCrossGap gap) rfl rfl]
  rfl

theorem body_withCrossGap (gap : Bool) (file : SourceId) :
    body (settings.withCrossGap gap) registry d file =
      Snippet.bodyRows ((pen settings registry d).withCrossGap gap)
        (.ofFile settings registry d file) := by
  rw [body, pen_withCrossGap]
  rfl

/-- Around the rows for sources the setting makes no difference. -/
theorem rows_withCrossGap (hrich : settings.detail = .rich) (gap : Bool) :
    (ofDiagnostic (settings.withCrossGap gap) registry d).rows =
      headerRows settings.theme [] d ++
        d.files.zipIdx.flatMap (fun e =>
          locatorRow (pen settings registry d) (e.2 = 0) (.ofFile settings registry d e.1) ::
            body (settings.withCrossGap gap) registry d e.1) ++
        noteRows (pen settings registry d) ((pen settings registry d).digits + 1) d.notes := by
  have hrows : (ofDiagnostic (settings.withCrossGap gap) registry d).rows = _ :=
    rows_ofDiagnostic (settings.withCrossGap gap) hrich
  rw [hrows, allRows_eq]
  unfold part
  rw [pen_withCrossGap]
  rfl

/-- **The rows for a source** with gaps and with crossings. -/
theorem crossesAs_body {file : SourceId} (hfile : file ∈ d.files) :
    List.Forall₂
      (Row.CrossesAs settings.charSet.glyphs
        (Snippet.Crosses (pen settings registry d) (.ofFile settings registry d file)))
      (body (settings.withCrossGap true) registry d file)
      (body (settings.withCrossGap false) registry d file) := by
  rw [body_withCrossGap, body_withCrossGap]
  cases hs : registry.source? file with
  | some s =>
    have hmem : Snippet.ofFile settings registry d file ∈
        Snippet.ofDiagnostic settings registry d := List.mem_map.2 ⟨file, hfile, rfl⟩
    refine (Snippet.isLaidOut_ofFile settings d hs).crossesAs_bodyRows (pen settings registry d)
      (Snippet.source_ofFile hs) (fun line hne => ?_) fun line => length_ofNat_le_digits hmem
    rw [Snippet.labelsOn_ofFile settings d hs] at hne
    exact Diagnostic.exists_line hne
  | none =>
    have hsource : (Snippet.ofFile settings registry d file).source = none := by
      simp only [Snippet.ofFile, hs]
    rw [Snippet.bodyRows_withCrossGap_of_missing _ hsource,
      Snippet.bodyRows_withCrossGap_of_missing _ hsource]
    refine Row.CrossesAs.refl_list settings.charSet.glyphs fun r hr n => ?_
    rcases Snippet.kind_of_mem_bodyRows_of_none hsource hr with hk | hk <;> rw [hk] <;>
      exact Snippet.not_crosses _ (fun _ => RowKind.noConfusion) fun _ => RowKind.noConfusion

/-- **Gaps and crossings.** Reports with gaps and with crossings have the same issues. A report
without snippets is the same with both. In a rich report all rows are the same but those for the
sources, and these have the same runs of styles and lengths: they differ in the columns where a run
passes over a connector, and nowhere else. -/
theorem gaps_differ_at_crossings :
    (ofDiagnostic (settings.withCrossGap true) registry d).issues =
        (ofDiagnostic (settings.withCrossGap false) registry d).issues ∧
      (settings.detail ≠ .rich → (ofDiagnostic (settings.withCrossGap true) registry d).rows =
        (ofDiagnostic (settings.withCrossGap false) registry d).rows) ∧
      (settings.detail = .rich → ∃ (header notes : List Row) (names : SourceId × Nat → Row),
        (∀ gap, (ofDiagnostic (settings.withCrossGap gap) registry d).rows =
          header ++ d.files.zipIdx.flatMap (fun e =>
            names e :: body (settings.withCrossGap gap) registry d e.1) ++ notes) ∧
        ∀ file ∈ d.files, List.Forall₂
          (Row.CrossesAs settings.charSet.glyphs
            (Snippet.Crosses (pen settings registry d) (.ofFile settings registry d file)))
          (body (settings.withCrossGap true) registry d file)
          (body (settings.withCrossGap false) registry d file)) := by
  refine ⟨rfl, fun hbrief => ?_, fun hrich => ?_⟩
  · have hrows (gap : Bool) : (ofDiagnostic (settings.withCrossGap gap) registry d).rows =
        (ofDiagnostic settings registry d).rows := by
      have hdetail : (settings.withCrossGap gap).detail = settings.detail := rfl
      unfold ofDiagnostic
      rw [hdetail]
      cases h : settings.detail with
      | rich => exact absurd h hbrief
      | medium => rfl
      | short => rfl
    rw [hrows, hrows]
  · exact ⟨_, _, _, rows_withCrossGap settings registry d hrich,
      fun file => crossesAs_body settings registry d⟩

/-- Two labels with messages in one line: the run to the first message passes over the connector of
the second one. -/
theorem gaps_differ_at_crossings_two :
    let s : Source := ⟨.snippet "a", "ab cd\n", by decide, ⟨1⟩, false⟩
    let left : Label := { span := ⟨⟨1⟩, 0, 2, by decide, by decide⟩, message := some "x" }
    let right : Label := { span := ⟨⟨1⟩, 3, 5, by decide, by decide⟩, message := some "y" }
    let d : Diagnostic := { level := .error, labels := [left, right] }
    let registry : Registry := ⟨[⟨s, s.name, none⟩]⟩
    ({} : Settings).detail = .rich ∧ (⟨1⟩ : SourceId) ∈ d.files ∧
      ∃ r r' : Row, r ∈ body (({} : Settings).withCrossGap true) registry d ⟨1⟩ ∧
        r' ∈ body (({} : Settings).withCrossGap false) registry d ⟨1⟩ ∧
        r.kind = .message 0 0 ∧ r.shape = r'.shape ∧
        r.written[8]? = some Glyphs.unicode.horizontal ∧
        r'.written[8]? = some Glyphs.unicode.crossing := by
  intro s left right d registry
  have hfile : (⟨1⟩ : SourceId) ∈ d.files := by decide
  obtain ⟨-, -, hrich⟩ := gaps_differ_at_crossings {} registry d
  obtain ⟨-, -, -, -, hbody⟩ := hrich rfl
  have hs : registry.source? ⟨1⟩ = some s := rfl
  have hsource : (Snippet.ofFile {} registry d ⟨1⟩).source = some s := rfl
  have hplaced : Placement.ofLabel s 0 left ∈ (Snippet.ofFile {} registry d ⟨1⟩).labelsOn 0 ∧
      Placement.ofLabel s 1 right ∈ (Snippet.ofFile {} registry d ⟨1⟩).labelsOn 0 := by
    decide +kernel
  -- The message of the first label has a row, and the theorem gives its other form.
  obtain ⟨r, hr, hkind⟩ : ∃ r ∈ body (({} : Settings).withCrossGap true) registry d ⟨1⟩,
      r.kind = .message 0 0 := by
    have hmem := (List.mem_filter.1 hplaced.1).1
    have hwindow : WindowEntry.line (Placement.ofLabel s 0 left).lastLine ∈
        (Snippet.ofFile {} registry d ⟨1⟩).window := by decide +kernel
    have hlaid := Snippet.isLaidOut_ofFile {} d hs
    obtain ⟨r, hr, hkind⟩ : ∃ r ∈ (Snippet.ofFile {} registry d ⟨1⟩).window.flatMap
        (Snippet.entryRows ((pen {} registry d).withCrossGap true) _ s), r.kind = .message 0 0 :=
      (hlaid.exists_message_iff hmem rfl).2 hwindow
    refine ⟨r, ?_, hkind⟩
    rw [body_withCrossGap, Snippet.bodyRows_eq hsource (List.ne_nil_of_mem hmem)]
    simp [hr]
  obtain ⟨i, hi, rfl⟩ := List.mem_iff_getElem.1 hr
  have hi' : i < (body (({} : Settings).withCrossGap false) registry d ⟨1⟩).length :=
    (hbody ⟨1⟩ hfile).length_eq ▸ hi
  have hpair := List.Forall₂.get (hbody ⟨1⟩ hfile) hi hi'
  have hspeaks : (Placement.ofLabel s 0 left).SpeaksBefore (.ofLabel s 1 right) :=
    Or.inr ⟨rfl, Or.inr ⟨rfl, Nat.zero_lt_one⟩⟩
  have hline : s.lines[0]? = some ⟨0, 0, "ab cd\n"⟩ := by decide +kernel
  have hattach : ((Placement.ofLabel s 0 left).underlined {} "ab cd\n").attach < 4 ∧
      ((Placement.ofLabel s 1 right).underlined {} "ab cd\n").attach = 4 := by decide +kernel
  have hcolumn :
      (pen {} registry d).leadWidth (Snippet.ofFile {} registry d ⟨1⟩).lanes + 4 = 8 := by
    decide +kernel
  have hcrosses : Snippet.Crosses (pen {} registry d) (.ofFile {} registry d ⟨1⟩)
      (.message 0 0) 8 := by
    rw [← hcolumn]
    have hmark : (Placement.ofLabel s 0 left).MarkCrosses {} "ab cd\n"
        ((Snippet.ofFile {} registry d ⟨1⟩).labelsOn 0) 4 :=
      ⟨.ofLabel s 1 right, hplaced.2, rfl, hspeaks,
        Nat.lt_of_lt_of_eq hattach.1 hattach.2.symm, hattach.2.symm⟩
    exact .mark hsource hline hplaced.1 hmark
  refine ⟨rfl, hfile, _, _, hr, List.getElem_mem hi', hkind, hpair.shape, ?_, ?_⟩
  · exact hpair.gap 8 (hkind ▸ hcrosses)
  · exact hpair.crossing 8 (hkind ▸ hcrosses)

end Report

end SourceReport
