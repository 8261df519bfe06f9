import SourceReport.Proofs.Output.Pieces
import SourceReport.Proofs.Report.Carets
import SourceReport.Proofs.Report.Ink

/-!
# The ink of a report

A report prints the texts of its diagnostic and the names of its sources, in colors of labels,
themes and palettes. Nothing stands in it but what these bring along and what can be printed, and
all of its styles can be written if the colors of labels and theme are valid.

* `Diagnostic.IsIn` says that the texts of a diagnostic are printed in an ink, `Registry.IsIn` that
  the names of the sources are, and `Report.IsIn` that a report is.

Results:
* `isShowable_of_mem_labelStyles`: every label has a style that can be written.
* `Report.part_of_mem_rows`: where the rows of a report stand.
* `Report.isIn_ofAll`: reports are printed in the ink of their diagnostics and sources.
* `Report.IsIn.pieces`: so is what is written of them at once.
-/

namespace SourceReport

/-! ## Diagnostics -/

/-- The texts of a diagnostic can be printed, and the colors of its labels can be written. -/
structure Diagnostic.IsIn (ink : Ink) (d : Diagnostic) : Prop where
  levelName : d.levelName.IsIn ink
  code : ∀ t ∈ d.code, t.IsIn ink
  message : d.message.IsIn ink
  notes : ∀ t ∈ d.notes, t.IsIn ink
  messages : ∀ l ∈ d.labels, ∀ t ∈ l.message, t.IsIn ink
  colors : ∀ l ∈ d.labels, ∀ c ∈ l.color, c.IsShowable

/-- The names that sources are shown under can be printed. -/
def Registry.IsIn (ink : Ink) (registry : Registry) : Prop :=
  ∀ e ∈ registry.entries, e.shown.display.IsIn ink

section Diagnostics

variable {ink : Ink} {settings : Settings} {registry : Registry} {d : Diagnostic}

/-- **The styles of labels** can be written: their own colors, those of a palette, and those of a
theme. -/
theorem isShowable_of_mem_labelStyles (htheme : settings.theme.IsValid)
    (hcolors : ∀ l ∈ d.labels, ∀ c ∈ l.color, c.IsShowable) :
    ∀ s ∈ labelStyles settings d, s.IsShowable := by
  have hfrom : ∀ (labels : List Label) (p : Palette), (∀ l ∈ labels, ∀ c ∈ l.color, c.IsShowable) →
      ∀ s ∈ stylesFrom settings d.level p labels, s.IsShowable := by
    intro labels
    induction labels with
    | nil => exact fun _ _ _ hs => absurd hs List.not_mem_nil
    | cons l labels ih =>
      intro p hlabels s hs
      have hrest := fun l hl => hlabels l (List.mem_cons_of_mem _ hl)
      rw [stylesFrom] at hs
      split at hs
      · next c hc =>
        rcases List.mem_cons.1 hs with rfl | hs
        · exact Style.isShowable_colored (hlabels l List.mem_cons_self c hc)
        · exact ih p hrest s hs
      · split at hs
        · rcases List.mem_cons.1 hs with rfl | hs
          · exact Style.isShowable_colored (c := .indexed _) (Int.natCast_nonneg _)
          · exact ih p.next hrest s hs
        · rcases List.mem_cons.1 hs with rfl | hs
          · exact htheme.label d.level l.emphasis
          · exact ih p hrest s hs
  exact hfrom d.labels .default hcolors

theorem Registry.IsIn.display (h : registry.IsIn ink) (file : SourceId) :
    (registry.display file).IsIn ink := by
  unfold Registry.display shown?
  cases hfind : registry.find? file with
  | some e => exact h e (List.mem_of_find?_eq_some hfind)
  | none =>
    have hmark : Text.IsIn ink "#" := Text.isIn_of_all (by decide)
    exact hmark.append (Text.isIn_ofHex 16 file.value)

theorem Snippet.IsIn.locatorText {s : Snippet} (h : s.IsIn ink) : s.locatorText.IsIn ink := by
  have hcolon : Text.IsIn ink ":" := Text.isIn_of_all (by decide)
  unfold Snippet.locatorText
  split
  · exact h.name
  · exact (h.name.append hcolon).append
      (((Text.isIn_ofNat _).append hcolon).append (Text.isIn_ofNat _))

/-- The snippets of a diagnostic show names and messages that can be printed. -/
theorem Diagnostic.IsIn.snippet (hd : d.IsIn ink) (hregistry : registry.IsIn ink)
    (settings : Settings) (file : SourceId) :
    (Snippet.ofFile settings registry d file).IsIn ink := by
  cases hs : registry.source? file with
  | none =>
    simp only [Snippet.ofFile, hs]
    exact ⟨hregistry.display file, fun _ hp => absurd hp List.not_mem_nil,
      fun _ he => absurd he List.not_mem_nil⟩
  | some source =>
    have hlaid := Snippet.isLaidOut_ofFile settings d hs
    refine ⟨?_, fun p hp => ?_, fun e he => (hlaid.mem_of_mem_lanes he).1⟩
    · simp only [Snippet.ofFile, hs]
      exact hregistry.display file
    · rw [Snippet.labels_ofFile hs] at hp
      obtain ⟨⟨label, index⟩, hlabel, rfl⟩ := List.mem_map.1 hp
      have hmem : label ∈ d.labels := List.mem_of_getElem? (Snippet.mem_labelsOf.1 hlabel).1
      have hmessage : Text.IsIn ink ((Placement.ofLabel source index label).message?.getD []) := by
        cases hsome : (Placement.ofLabel source index label).message? with
        | none => exact Text.isIn_nil
        | some t => exact hd.messages label hmem t (Option.filter_eq_some_iff.1 hsome).1
      exact fun row hrow => hmessage.of_mem_rows hrow

theorem Diagnostic.IsIn.title (hd : d.IsIn ink) : d.title.IsIn ink := by
  have hopen : Text.IsIn ink "[" := Text.isIn_of_all (by decide)
  have hclose : Text.IsIn ink "]" := Text.isIn_of_all (by decide)
  unfold Diagnostic.title
  split
  · next c code hcode =>
    exact ((hd.levelName.append hopen).append (hd.code _ hcode)).append hclose
  · exact hd.levelName

theorem Diagnostic.IsIn.messageRows (hd : d.IsIn ink) : ∀ row ∈ d.messageRows, row.IsIn ink := by
  intro row hrow
  unfold Diagnostic.messageRows at hrow
  split at hrow
  · exact absurd hrow List.not_mem_nil
  · exact hd.message.of_mem_rows hrow

/-! ## Rows outside of the snippets -/

theorem isIn_headerRows {theme : Theme} (htheme : theme.IsValid) {lead : Text}
    (hlead : lead.IsIn ink) (hd : d.IsIn ink) : ∀ r ∈ headerRows theme lead d, r.IsIn ink := by
  have hword : Run.IsIn ink ⟨d.title, some (theme.header d.level)⟩ :=
    Run.isIn_of_some hd.title (htheme.header d.level)
  have hmessage : theme.headerMessage.IsShowable := htheme.isShowable (by simp [Theme.styles])
  have hrows := hd.messageRows
  intro r hr
  unfold headerRows at hr
  dsimp only at hr
  split at hr
  · rw [List.mem_singleton.1 hr]
    refine Row.isIn_of_text fun run hrun => ?_
    rcases List.mem_append.1 hrun with hrun | hrun
    · split at hrun
      · exact absurd hrun List.not_mem_nil
      · exact List.mem_singleton.1 hrun ▸ Run.isIn_of_none hlead
    · rw [List.mem_singleton.1 hrun]
      exact hword
  · next row more heq =>
    rw [heq] at hrows
    rcases List.mem_cons.1 hr with rfl | hr
    · have hcolon : Text.IsIn ink ": " := Text.isIn_of_all (by decide)
      refine Row.isIn_of_text fun run hrun => ?_
      rcases List.mem_append.1 hrun with hrun | hrun
      · split at hrun
        · exact absurd hrun List.not_mem_nil
        · exact List.mem_singleton.1 hrun ▸ Run.isIn_of_none hlead
      · rcases List.mem_cons.1 hrun with rfl | hrun
        · exact hword
        · rw [List.mem_singleton.1 hrun]
          exact Run.isIn_of_some (hcolon.append (hrows row List.mem_cons_self)) hmessage
    · obtain ⟨n, hn, rfl⟩ := List.mem_mapIdx.1 hr
      refine Row.isIn_of_text fun run hrun => ?_
      rcases List.mem_cons.1 hrun with rfl | hrun
      · exact Run.isIn_of_none (Text.isIn_spaces _)
      · rw [List.mem_singleton.1 hrun]
        exact Run.isIn_of_some (hrows _ (List.mem_cons_of_mem _ (List.getElem_mem hn))) hmessage

theorem isIn_noteRows {pen : Pen} (hpen : pen.IsShowable) (column : Nat) {notes : List Text}
    (hnotes : ∀ t ∈ notes, t.IsIn ink) : ∀ r ∈ noteRows pen column notes, r.IsIn ink := by
  have hword : noteWord.IsIn ink := Text.isIn_of_all (by decide)
  have hbullet : pen.glyphs.bullet.IsIn ink := by
    unfold Pen.glyphs
    cases pen.settings.charSet <;> exact Text.isIn_of_all (by decide)
  intro r hr
  obtain ⟨⟨note, index⟩, hnote, hr⟩ := List.mem_flatMap.1 hr
  have hrows : ∀ row ∈ Text.rows note, row.IsIn ink := fun row hrow =>
    (hnotes note (List.fst_mem_of_mem_zipIdx hnote)).of_mem_rows hrow
  unfold noteRowsOf at hr
  dsimp only at hr
  split at hr
  · exact absurd hr List.not_mem_nil
  · next row more heq =>
    rw [heq] at hrows
    rcases List.mem_cons.1 hr with rfl | hr
    · refine ⟨fun run hrun => ?_, fun _ h => (nomatch h), fun _ h => (nomatch h),
        fun run hrun => ?_⟩
      · rcases List.mem_cons.1 hrun with rfl | hrun
        · exact Run.isIn_of_none (Text.isIn_spaces _)
        · rw [List.mem_singleton.1 hrun]
          exact Run.isIn_of_some hbullet (hpen.theme.isShowable (by simp [Theme.styles]))
      · rw [List.mem_singleton.1 hrun]
        exact Run.isIn_of_none (hword.append (hrows row List.mem_cons_self))
    · obtain ⟨n, hn, rfl⟩ := List.mem_mapIdx.1 hr
      refine Row.isIn_of_text fun run hrun => ?_
      rw [List.mem_singleton.1 hrun]
      exact Run.isIn_of_none ((Text.isIn_spaces _).append
        (hrows _ (List.mem_cons_of_mem _ (List.getElem_mem hn))))

theorem isIn_locatorRow {pen : Pen} (hpen : pen.IsShowable) (isFirst : Bool) {s : Snippet}
    (hs : s.IsIn ink) : (locatorRow pen isFirst s).IsIn ink where
  gutter run hrun := by
    have harrow : Text.IsIn ink
        (if isFirst then pen.glyphs.locator else pen.glyphs.locatorMore) := by
      unfold Pen.glyphs
      cases pen.settings.charSet <;> cases isFirst <;> exact Text.isIn_of_all (by decide)
    rcases List.mem_cons.1 hrun with rfl | hrun
    · exact Run.isIn_of_none (Text.isIn_spaces _)
    · rw [List.mem_singleton.1 hrun]
      exact Run.isIn_of_some harrow (hpen.theme.isShowable (by simp [Theme.styles]))
  margin _ hc := nomatch hc
  cells _ hc := nomatch hc
  text run hrun := by
    have hspace : Text.IsIn ink " " := Text.isIn_of_all (by decide)
    rw [List.mem_singleton.1 hrun]
    exact Run.isIn_of_none (hspace.append hs.locatorText)

end Diagnostics

/-! ## Reports -/

namespace Report

variable {ink : Ink} {settings : Settings} {registry : Registry} {d : Diagnostic}

/-- The rows of a report are printed in an ink. -/
def IsIn (ink : Ink) (r : Report) : Prop := ∀ row ∈ r.rows, row.IsIn ink

/-- **A row of a report** stands in the header, above a snippet or in one, or in a note. -/
theorem part_of_mem_rows {r : Row} (hr : r ∈ (ofDiagnostic settings registry d).rows) :
    (∃ front ∈ [[], lead (Snippet.ofDiagnostic settings registry d)],
      r ∈ headerRows settings.theme front d) ∨
    (∃ file ∈ d.files,
      (∃ isFirst, r = locatorRow (pen settings registry d) isFirst
        (.ofFile settings registry d file)) ∨
      r ∈ Snippet.bodyRows (pen settings registry d) (.ofFile settings registry d file)) ∨
    ∃ column, r ∈ noteRows (pen settings registry d) column d.notes := by
  have hbrief : ∀ withNotes, r ∈ briefRows (pen settings registry d) d
        (Snippet.ofDiagnostic settings registry d) withNotes →
      r ∈ headerRows settings.theme (lead (Snippet.ofDiagnostic settings registry d)) d ∨
        r ∈ noteRows (pen settings registry d) 1 d.notes := by
    intro withNotes hr
    rcases List.mem_append.1 hr with hr | hr
    · exact Or.inl hr
    · cases withNotes with
      | true => exact Or.inr hr
      | false => cases hr
  unfold ofDiagnostic at hr
  dsimp only at hr
  cases hdetail : settings.detail with
  | rich =>
    rw [hdetail] at hr
    rcases List.mem_append.1 hr with hr | hr
    · rcases List.mem_append.1 hr with hr | hr
      · exact Or.inl ⟨[], List.mem_cons_self, hr⟩
      · obtain ⟨⟨s, n⟩, hs, hr⟩ := List.mem_flatMap.1 hr
        obtain ⟨file, hfile, rfl⟩ := List.mem_map.1 (List.fst_mem_of_mem_zipIdx hs)
        refine Or.inr (Or.inl ⟨file, hfile, ?_⟩)
        rcases List.mem_cons.1 hr with rfl | hr
        · exact Or.inl ⟨_, rfl⟩
        · exact Or.inr hr
    · exact Or.inr (Or.inr ⟨_, hr⟩)
  | medium =>
    rw [hdetail] at hr
    rcases hbrief true hr with hr | hr
    · exact Or.inl ⟨_, List.mem_cons_of_mem _ List.mem_cons_self, hr⟩
    · exact Or.inr (Or.inr ⟨_, hr⟩)
  | short =>
    rw [hdetail] at hr
    rcases hbrief false hr with hr | hr
    · exact Or.inl ⟨_, List.mem_cons_of_mem _ List.mem_cons_self, hr⟩
    · exact Or.inr (Or.inr ⟨_, hr⟩)

/-- **The report of a diagnostic** is printed in the ink of its texts. -/
theorem isIn_ofDiagnostic (htheme : settings.theme.IsValid) (hregistry : registry.IsIn ink)
    (hd : d.IsIn ink) : (ofDiagnostic settings registry d).IsIn ink := by
  have hpen : (pen settings registry d).IsShowable :=
    ⟨htheme, isShowable_of_mem_labelStyles htheme hd.colors⟩
  have hlead : (lead (Snippet.ofDiagnostic settings registry d)).IsIn ink := by
    unfold lead
    split
    · exact Text.isIn_nil
    · next s _ heq =>
      have hs : s ∈ Snippet.ofDiagnostic settings registry d := heq ▸ List.mem_cons_self
      obtain ⟨file, -, rfl⟩ := List.mem_map.1 hs
      exact (hd.snippet hregistry settings file).locatorText.append (Text.isIn_of_all (by decide))
  intro r hr
  rcases part_of_mem_rows hr with ⟨front, hfront, hr⟩ | ⟨file, -, ⟨isFirst, rfl⟩ | hr⟩ | ⟨_, hr⟩
  · refine isIn_headerRows htheme ?_ hd r hr
    rcases List.mem_cons.1 hfront with rfl | hfront
    · exact Text.isIn_nil
    · rw [List.mem_singleton.1 hfront]
      exact hlead
  · exact isIn_locatorRow hpen isFirst (hd.snippet hregistry settings file)
  · exact Snippet.isIn_bodyRows hpen (hd.snippet hregistry settings file) r hr
  · exact isIn_noteRows hpen _ hd.notes r hr

/-- A row of several reports stands in one of them or between two. -/
theorem exists_of_mem_rows_ofAll {ds : List Diagnostic} {r : Row}
    (hr : r ∈ (ofAll settings registry ds).rows) :
    r = { kind := .separator } ∨ ∃ d ∈ ds, r ∈ (ofDiagnostic settings registry d).rows := by
  rcases mem_of_mem_intercalate hr with hr | ⟨rows, hrows, hr⟩
  · unfold separation at hr
    split at hr
    · exact Or.inl (List.mem_singleton.1 hr)
    · exact absurd hr List.not_mem_nil
  · simp only [List.map_map, List.mem_map] at hrows
    obtain ⟨d, hd, rfl⟩ := hrows
    exact Or.inr ⟨d, hd, hr⟩

/-- **The reports of diagnostics** are printed in the ink of their texts. -/
theorem isIn_ofAll {ds : List Diagnostic} (htheme : settings.theme.IsValid)
    (hregistry : registry.IsIn ink) (hds : ∀ d ∈ ds, d.IsIn ink) :
    (ofAll settings registry ds).IsIn ink := by
  intro r hr
  rcases exists_of_mem_rows_ofAll hr with rfl | ⟨d, hd, hr⟩
  · exact Row.isIn_of_text fun _ hr => nomatch hr
  · exact isIn_ofDiagnostic htheme hregistry (hds d hd) r hr

/-- The runs of a report are printed in its ink. -/
theorem IsIn.runs {r : Report} (h : r.IsIn ink) : ∀ run ∈ r.runs, run.IsIn ink := by
  intro run hrun
  obtain ⟨row, hrow, hrun⟩ := List.mem_flatMap.1 hrun
  rcases List.mem_append.1 hrun with hrun | hrun
  · exact (h row hrow).printed run hrun
  · rw [List.mem_singleton.1 hrun]
    refine Run.isIn_of_none fun c hc => ?_
    rw [List.mem_singleton.1 hc]
    exact ink.has_newline

/-- The pieces of a report are texts in its ink and styles that can be written. -/
theorem IsIn.pieces {r : Report} (h : r.IsIn ink) (color : Bool) :
    ∀ p ∈ r.pieces color, p.style.IsShowable ∧ p.text.IsIn ink := by
  intro p hp
  rw [pieces_eq] at hp
  obtain ⟨run, hrun, rfl⟩ := List.mem_map.1 hp
  have hin := h.runs run hrun
  refine ⟨?_, hin.text⟩
  unfold Run.piece
  cases hstyle : run.style.filter fun s => color && !s.isPlain with
  | none => exact Style.isShowable_plain
  | some s => exact hin.style s (Option.filter_eq_some_iff.1 hstyle).1

end Report

end SourceReport
