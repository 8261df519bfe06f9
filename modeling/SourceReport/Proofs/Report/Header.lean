import SourceReport.Proofs.Report.Difference
import SourceReport.Proofs.Report.Gutter

/-!
# Headers hang

The first row of a report holds the location (if there is no snippet), the level, the code and the
first line of the message. The further lines of the message stand below the first one. Their column
is the sum of widths that are measured piece by piece, while the first row is printed as one text:
both are the same if no piece has a tab.

* `Report.front` is what stands in front of the level, `Diagnostic.codeMark` the code behind it.
* `Row.Reads` is the text of a row, `Row.HangsAt` a row whose text starts in a column.

Results:
* `Text.hasWidth_of_not_tab`: a text without tabs has the same width everywhere.
* `headerRows_eq`: the rows of a header, with and without a message.
* `Report.headers_hang`: the headers of all reports.
-/

namespace SourceReport

/-! ## Texts without tabs -/

namespace Text

/-- A text that stays on one line and has no tabs. -/
structure IsFlat (t : Text) : Prop where
  tab : ('\t' : CodePoint) ∉ t
  newline : ('\n' : CodePoint) ∉ t

/-- **A text without tabs** takes as many cells wherever it stands. -/
theorem hasWidth_of_not_tab {t : Text} (h : ('\t' : CodePoint) ∉ t) :
    t.HasWidth (t.cells usualTab) := by
  intro tabWidth column
  unfold cells
  suffices hshift : ∀ start, columnAfter tabWidth (column + start) t =
      column + columnAfter usualTab start t from hshift 0
  induction t with
  | nil => exact fun _ => rfl
  | cons c t ih =>
    intro start
    obtain ⟨hc, ht⟩ := not_or.1 (mt List.mem_cons.2 h)
    have htab : c ≠ '\t' := fun heq => hc heq.symm
    rw [columnAfter, columnAfter, CodePoint.cells_eq_of_ne_tab htab tabWidth,
      CodePoint.cells_eq_of_ne_tab htab usualTab, Nat.add_assoc]
    exact ih ht _

end Text

/-! ## Rows and their texts -/

/-- The text of a row, of which the blanks at the end are not written. -/
structure Row.Reads (t : Text) (r : Row) : Prop where
  runs : runsText r.runs = t
  written : r.written = t.trimEnd

theorem Row.reads_of_runs {r : Row} {t : Text} (h : runsText r.runs = t) : r.Reads t := by
  refine ⟨h, ?_⟩
  rw [written, printed, runsText_joinRuns, runsText_trimRuns, h]

/-- A row whose text starts in a column. Nothing is written of a text without visible characters. -/
structure Row.HangsAt (column : Nat) (t : Text) (r : Row) : Prop where
  reads : r.Reads (Text.spaces column ++ t)
  visible : t.trimEnd ≠ [] → r.written = Text.spaces column ++ t.trimEnd
  blank : t.trimEnd = [] → r.written = []

theorem Text.trimEnd_spaces (n : Nat) : (spaces n).trimEnd = [] := by
  induction n with
  | zero => rfl
  | succ n ih =>
    have hsucc : spaces (n + 1) = (' ' : CodePoint) :: spaces n := rfl
    rw [hsucc, trimEnd, ih]
    rfl

theorem Row.Reads.hangsAt {r : Row} {column : Nat} {t : Text}
    (h : r.Reads (Text.spaces column ++ t)) : r.HangsAt column t where
  reads := h
  visible := fun hne => by rw [h.written, Text.trimEnd_append_of_ne_nil hne]
  blank := fun hnil => by rw [h.written, Text.trimEnd_append_of_nil hnil, Text.trimEnd_spaces]

/-! ## Headers -/

namespace Diagnostic

variable (d : Diagnostic)

/-- The code in brackets, unless it is empty. -/
def codeMark : Text := if d.code.getD [] = [] then [] else "[" ++ d.code.getD [] ++ "]"

theorem title_eq : d.title = d.levelName ++ d.codeMark := by
  unfold title codeMark
  cases d.code with
  | none => exact (List.append_nil _).symm
  | some code =>
    cases code with
    | nil => exact (List.append_nil _).symm
    | cons c code =>
      simp only [Option.getD_some, if_neg (List.cons_ne_nil c code), List.append_assoc]

end Diagnostic

/-- Everything on the first row of a header up to the message. -/
def headerPrefix (front : Text) (d : Diagnostic) : Text :=
  front ++ d.levelName ++ d.codeMark ++ ": "

theorem Text.IsFlat.append {a b : Text} (ha : a.IsFlat) (hb : b.IsFlat) : (a ++ b).IsFlat where
  tab := fun h => (List.mem_append.1 h).elim ha.tab hb.tab
  newline := fun h => (List.mem_append.1 h).elim ha.newline hb.newline

theorem Diagnostic.isFlat_codeMark {d : Diagnostic} (h : Text.IsFlat (d.code.getD [])) :
    d.codeMark.IsFlat := by
  unfold codeMark
  split
  · exact ⟨List.not_mem_nil, List.not_mem_nil⟩
  · exact (Text.IsFlat.append ⟨by decide, by decide⟩ h).append ⟨by decide, by decide⟩

section Header

variable {front : Text} {d : Diagnostic} (hfront : front.IsFlat) (hname : d.levelName.IsFlat)
  (hcode : Text.IsFlat (d.code.getD []))

include hfront hname hcode

theorem isFlat_headerPrefix : (headerPrefix front d).IsFlat :=
  ((hfront.append hname).append (d.isFlat_codeMark hcode)).append ⟨by decide, by decide⟩

/-- **The column of the further rows** is the width of what stands in front of the message. -/
theorem headerIndent_eq : headerIndent (front.cells Text.usualTab) d =
    (headerPrefix front d).cells Text.usualTab := by
  have htitle : d.title.IsFlat := by
    rw [d.title_eq]
    exact hname.append (Diagnostic.isFlat_codeMark hcode)
  have hparts := ((Text.hasWidth_of_not_tab hfront.tab).append
    (Text.hasWidth_of_not_tab htitle.tab)).append
      (Text.hasWidth_of_not_tab (t := ": ") (by decide))
  have hcolon : Text.cells Text.usualTab (": " : Text) = 2 := by decide +kernel
  rw [headerPrefix, List.append_assoc front, ← d.title_eq, hparts.cells_eq, hcolon, headerIndent]

end Header

/-- The rows of a header: without a message there is one, with a message one for each line of it. -/
inductive HeaderReads (front : Text) (d : Diagnostic) : List Row → Prop
  | plain {first : Row} (hmessage : d.message = [])
    (hfirst : first.Reads (front ++ d.levelName ++ d.codeMark)) : HeaderReads front d [first]
  | hanging {first : Row} {rest : List Row} {line : Text} {lines : List Text}
    (hmessage : d.message ≠ []) (hlines : d.message = Text.join "\n" (line :: lines))
    (hflat : ∀ l ∈ line :: lines, ('\n' : CodePoint) ∉ l)
    (hfirst : first.Reads (headerPrefix front d ++ line))
    (hrest : List.Forall₂ (fun r l => r.HangsAt ((headerPrefix front d).cells Text.usualTab) l)
      rest lines) : HeaderReads front d (first :: rest)

namespace HeaderReads

variable {front : Text} {d : Diagnostic} {rows : List Row}

/-- No row of a header goes on over the end of a line. -/
theorem newline_not_mem (h : HeaderReads front d rows) (hlead : (headerPrefix front d).IsFlat) :
    ∀ r ∈ rows, ('\n' : CodePoint) ∉ r.written := by
  have hreads : ∀ {r : Row} {t : Text}, r.Reads t → ('\n' : CodePoint) ∉ t →
      ('\n' : CodePoint) ∉ r.written := by
    intro r t hr ht hmem
    rw [hr.written] at hmem
    exact ht (t.trimEnd_prefix.subset hmem)
  cases h with
  | plain hmessage hfirst =>
    intro r hr
    rw [List.mem_singleton.1 hr]
    exact hreads hfirst fun hmem => hlead.newline (List.mem_append_left _ hmem)
  | @hanging first rest line lines hmessage hlines hflat hfirst hrest =>
    intro r hr
    rcases List.mem_cons.1 hr with rfl | hr
    · refine hreads hfirst fun hmem => ?_
      rcases List.mem_append.1 hmem with hmem | hmem
      · exact hlead.newline hmem
      · exact hflat line List.mem_cons_self hmem
    · obtain ⟨l, hl, hhangs⟩ := exists_mem_of_forall₂ hrest hr
      refine hreads hhangs.reads fun hmem => ?_
      rcases List.mem_append.1 hmem with hmem | hmem
      · exact absurd (List.eq_of_mem_replicate hmem) (by decide)
      · exact hflat l (List.mem_cons_of_mem _ hl) hmem

end HeaderReads

/-- **The rows of a header.** -/
theorem headerReads_headerRows (theme : Theme) {front : Text} {d : Diagnostic}
    (hfront : front.IsFlat) (hname : d.levelName.IsFlat) (hcode : Text.IsFlat (d.code.getD [])) :
    HeaderReads front d (headerRows theme front d) := by
  have hindent := headerIndent_eq hfront hname hcode
  have htitle := d.title_eq
  unfold headerRows
  dsimp only
  cases hmessage : d.message with
  | nil =>
    have hrows : d.messageRows = [] := by rw [Diagnostic.messageRows, hmessage]
    rw [hrows]
    refine .plain hmessage (Row.reads_of_runs ?_)
    cases front <;> simp [Row.runs, runsText, htitle]
  | cons c message =>
    have hne : d.message ≠ [] := by
      rw [hmessage]
      exact List.cons_ne_nil c message
    have hrows : d.messageRows = Text.rows d.message := by
      rw [Diagnostic.messageRows, hmessage]
    have hjoin : Text.join "\n" (Text.rows d.message) = d.message := List.intercalate_splitOn _
    have hflat : ∀ l ∈ Text.rows d.message, ('\n' : CodePoint) ∉ l := fun l hl hmem =>
      (Text.mem_of_mem_splitOn hl hmem).2 rfl
    rw [hrows, hindent]
    cases hlines : Text.rows d.message with
    | nil => exact absurd hlines (List.splitOn_ne_nil ('\n' : CodePoint) d.message)
    | cons line lines =>
      rw [hlines] at hjoin hflat
      refine .hanging hne hjoin.symm hflat (Row.reads_of_runs ?_) ?_
      · cases front <;> simp [Row.runs, runsText, htitle, headerPrefix]
      · refine List.forall₂_iff_get.2 ⟨List.length_mapIdx, fun n hn hn' => ?_⟩
        refine Row.Reads.hangsAt (Row.reads_of_runs ?_)
        simp [Row.runs, runsText]

namespace Report

variable (settings : Settings) (registry : Registry) (d : Diagnostic)

/-- What stands in front of the level: the location, in reports without snippets. -/
def front : Text :=
  match settings.detail with
  | .rich => []
  | _ => lead (Snippet.ofDiagnostic settings registry d)

/-- A report starts with its header, and has no header further down. -/
theorem exists_rows_eq_header : ∃ below,
    (ofDiagnostic settings registry d).rows =
      headerRows settings.theme (front settings registry d) d ++ below ∧
    ∀ r ∈ below, ∀ n, r.kind ≠ .header n := by
  have hnotes : ∀ column, ∀ r ∈ noteRows (pen settings registry d) column d.notes,
      ∀ n, r.kind ≠ .header n := by
    intro column r hr n hkind
    obtain ⟨index, part, hk⟩ := exists_kind_noteRows hr
    rw [hkind] at hk
    cases hk
  unfold front
  cases hdetail : settings.detail with
  | rich =>
    refine ⟨_, by rw [rows_ofDiagnostic settings hdetail, List.append_assoc],
      fun r hr n hkind => ?_⟩
    rw [allRows_eq, List.mem_append, List.mem_flatMap] at hr
    rcases hr with ⟨e, -, hr⟩ | hr
    · rcases List.mem_cons.1 hr with rfl | hr
      · cases hkind
      · rcases kind_of_mem_body_cases settings registry d hr with hk | hk | hk <;>
          rw [hkind] at hk <;> cases hk
    · exact hnotes _ r hr n hkind
  | medium =>
    refine ⟨noteRows (pen settings registry d) 1 d.notes, ?_, hnotes 1⟩
    simp only [ofDiagnostic, hdetail, briefRows]
    rfl
  | short =>
    refine ⟨[], ?_, fun r hr => by cases hr⟩
    simp only [ofDiagnostic, hdetail, briefRows]
    rfl

/-- **Headers hang.** If neither the location nor level and code have tabs or line ends, a report
starts with its header, of which each row is one line: level and code, and the message line by line.
The further lines stand in the column behind everything that stands in front of the first one. -/
theorem headers_hang (hfront : (front settings registry d).IsFlat) (hname : d.levelName.IsFlat)
    (hcode : Text.IsFlat (d.code.getD [])) :
    ∃ header below, (ofDiagnostic settings registry d).rows = header ++ below ∧
      (∀ r ∈ header, (∃ n, r.kind = .header n) ∧ ('\n' : CodePoint) ∉ r.written) ∧
      (∀ r ∈ below, ∀ n, r.kind ≠ .header n) ∧
      HeaderReads (front settings registry d) d header := by
  obtain ⟨below, hrows, hbelow⟩ := exists_rows_eq_header settings registry d
  have hreads := headerReads_headerRows settings.theme hfront hname hcode
  exact ⟨_, below, hrows, fun r hr => ⟨exists_kind_headerRows hr,
    hreads.newline_not_mem (isFlat_headerPrefix hfront hname hcode) r hr⟩, hbelow, hreads⟩

/-- A wide character in the name of the source moves the second line of the message one column
further than there are characters in front of the first one. -/
theorem headers_hang_wide :
    let s : Source := ⟨.snippet "界", "x\n", by decide, ⟨1⟩, false⟩
    let label : Label := { span := ⟨⟨1⟩, 0, 1, by decide, by decide⟩ }
    let d : Diagnostic :=
      { level := .error, message := "a\nb", code := some "E1", labels := [label] }
    let settings : Settings := { detail := .short }
    let registry : Registry := ⟨[⟨s, s.name, none⟩]⟩
    (front settings registry d).IsFlat ∧ d.levelName.IsFlat ∧ Text.IsFlat (d.code.getD []) ∧
      ∃ first second below, (ofDiagnostic settings registry d).rows = first :: second :: below ∧
        first.written = "界:1:1: error[E1]: a" ∧ second.written = Text.spaces 19 ++ "b" := by
  intro s label d settings registry
  have hlead : headerPrefix (front settings registry d) d = "界:1:1: error[E1]: " := by
    decide +kernel
  have hcolumn : (headerPrefix (front settings registry d) d).cells Text.usualTab = 19 := by
    decide +kernel
  have hfront : (front settings registry d).IsFlat := ⟨by decide +kernel, by decide +kernel⟩
  have hname : d.levelName.IsFlat := ⟨by decide, by decide⟩
  have hcode : Text.IsFlat (d.code.getD []) := ⟨by decide, by decide⟩
  obtain ⟨header, below, hrows, -, -, hreads⟩ := headers_hang settings registry d hfront hname hcode
  cases hreads with
  | plain hmessage => exact absurd hmessage (by decide)
  | @hanging first rest line lines _ hlines hflat hfirst hrest =>
    have hsplit : line :: lines = ["a", "b"] := by
      have hpieces :=
        List.splitOn_intercalate ('\n' : CodePoint) hflat (List.cons_ne_nil line lines)
      rw [← hpieces]
      exact (congrArg Text.rows hlines).symm
    obtain ⟨rfl, rfl⟩ := List.cons.inj hsplit
    obtain ⟨second, rest, hsecond, hnil, rfl⟩ := List.forall₂_cons_right_iff.1 hrest
    rw [List.forall₂_nil_right_iff.1 hnil] at hrows
    refine ⟨hfront, hname, hcode, first, second, below, hrows, ?_, ?_⟩
    · rw [hfirst.written, hlead]
      decide
    · rw [hsecond.visible (by decide), hcolumn]
      rfl

end Report

end SourceReport
