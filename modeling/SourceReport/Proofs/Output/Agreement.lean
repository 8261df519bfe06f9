import SourceReport.Proofs.Output.Ansi
import SourceReport.Proofs.Output.Html
import SourceReport.Proofs.Report.Printed
import SourceReport.Proofs.Report.Recolor

/-!
# One text in all formats

A report is the same text in every format, with color and without it. Its escape sequences and tags
come from the styles alone: no text that it prints has an escape character, and in markup every text
is escaped.

* `Ink.withoutEscape` has all code points but the escape character.
* `Diagnostic.IsClean` says that no text of a diagnostic has an escape character, and that the
  colors of its labels are valid.

Results:
* `Report.exists_write_ansi`, `Report.exists_write_html`: a report in either format.
* `Report.formats_agree`: all formats have one text.
-/

namespace SourceReport

/-- All code points but the escape character. -/
def Ink.withoutEscape : Ink where
  Has c := c ≠ Ansi.escape
  has_of_not_control c hc := by
    rintro rfl
    exact absurd hc (by decide)
  has_newline := by decide

/-- No text of a diagnostic has an escape character, and the colors of its labels are valid. -/
structure Diagnostic.IsClean (d : Diagnostic) : Prop where
  levelName : Ansi.escape ∉ d.levelName
  code : ∀ t ∈ d.code, Ansi.escape ∉ t
  message : Ansi.escape ∉ d.message
  notes : ∀ t ∈ d.notes, Ansi.escape ∉ t
  messages : ∀ l ∈ d.labels, ∀ t ∈ l.message, Ansi.escape ∉ t
  colors : ∀ l ∈ d.labels, ∀ c ∈ l.color, c.isValid = true

theorem Text.isIn_withoutEscape_iff {t : Text} : t.IsIn .withoutEscape ↔ Ansi.escape ∉ t :=
  ⟨fun h hmem => h _ hmem rfl, fun h _ hc heq => h (heq ▸ hc)⟩

theorem Diagnostic.IsClean.isIn {d : Diagnostic} (h : d.IsClean) : d.IsIn .withoutEscape where
  levelName := Text.isIn_withoutEscape_iff.2 h.levelName
  code t ht := Text.isIn_withoutEscape_iff.2 (h.code t ht)
  message := Text.isIn_withoutEscape_iff.2 h.message
  notes t ht := Text.isIn_withoutEscape_iff.2 (h.notes t ht)
  messages l hl t ht := Text.isIn_withoutEscape_iff.2 (h.messages l hl t ht)
  colors l hl c hc := Color.isShowable_of_isValid (h.colors l hl c hc)

namespace Report

variable {r : Report} (color : Bool)

theorem write_plain_eq (r : Report) (color : Bool) :
    r.write .plain color = .ok (runsText r.runs) := by
  rw [write_plain, runsText_runs]

/-- **A report with escape sequences** is shown as its text. -/
theorem exists_write_ansi (h : r.IsIn .withoutEscape) :
    ∃ out, r.write .ansi color = .ok out ∧ Ansi.Shows out (runsText r.runs) := by
  refine exists_write Ansi.shows_nil Ansi.Shows.append fun p hp => ?_
  obtain ⟨hstyle, htext⟩ := h.pieces color p hp
  obtain ⟨out, hout, hshows⟩ := Ansi.exists_write_eq_ok hstyle p.text
  exact ⟨out, hout, hshows (Text.isIn_withoutEscape_iff.1 htext)⟩

/-- **A report in markup** is shown as its text. -/
theorem exists_write_html {ink : Ink} (h : r.IsIn ink) :
    ∃ out, r.write .html color = .ok out ∧ Html.Shows out (runsText r.runs) :=
  exists_write Html.shows_nil Html.Shows.append fun p hp =>
    ⟨_, rfl, Html.shows_write (h.pieces color p hp).1 p.text⟩

/-- A report in markup consists of one output for each piece. -/
theorem write_html (r : Report) :
    r.write .html color = .ok ((r.pieces color).flatMap fun p => Html.write p.style p.text) := by
  have hpieces : ∀ pieces : List Piece, pieces.mapM (Piece.write .html) =
      .ok (pieces.map fun p => Html.write p.style p.text) := by
    intro pieces
    induction pieces with
    | nil => rfl
    | cons p pieces ih =>
      rw [List.mapM_cons, ih]
      rfl
  rw [write_eq, hpieces]
  rfl

variable (settings : Settings) (registry : Registry) (ds : List Diagnostic)

/-- **All formats have one text**, with color and without it: reports without styles, with escape
sequences taken out, and in markup without its tags and with the references read. No newline is
shown with attributes, and every element of the markup is closed in the piece that opens it. -/
theorem formats_agree (htheme : settings.theme.IsValid)
    (hnames : ∀ e ∈ registry.entries, Ansi.escape ∉ e.shown.display)
    (hclean : ∀ d ∈ ds, d.IsClean) :
    ∃ text, ∀ color, let r := ofAll (settings.withColor color) registry ds
      r.write .plain color = .ok text ∧
      (∃ out, r.write .ansi color = .ok out ∧ Ansi.strip out = text ∧
        ∀ c ∈ Ansi.painting false out, c.1 = '\n' → c.2 = false) ∧
      ∃ out, r.write .html color = .ok out ∧ Html.decode (Html.withoutTags out) = text ∧
        out = ((r.pieces color).flatMap fun p => Html.write p.style p.text) ∧
        ∀ p ∈ r.pieces color, Html.IsClosed (Html.write p.style p.text) := by
  have hregistry : registry.IsIn .withoutEscape := fun e he =>
    Text.isIn_withoutEscape_iff.2 (hnames e he)
  have hreport : (ofAll settings registry ds).IsIn .withoutEscape :=
    isIn_ofAll htheme hregistry fun d hd => (hclean d hd).isIn
  refine ⟨runsText (ofAll settings registry ds).runs, fun color => ?_⟩
  rw [ofAll_withColor]
  obtain ⟨ansi, hansi, hshows⟩ := exists_write_ansi color hreport
  obtain ⟨html, hhtml, hshows'⟩ := exists_write_html color hreport
  refine ⟨write_plain_eq _ color, ⟨ansi, hansi, hshows.strip⟩, html, hhtml,
    hshows'.decode_withoutTags, ?_, fun p hp => ?_⟩
  · rw [write_html, Except.ok.injEq] at hhtml
    exact hhtml.symm
  · exact Html.isClosed_write (hreport.pieces color p hp).1 p.text

/-- The source holds an escape sequence, and the message of the label a tag. -/
theorem formats_agree_markup :
    let s : Source := ⟨.snippet "a", Ansi.escape :: "[31m", by decide, ⟨1⟩, false⟩
    let label : Label :=
      { span := ⟨⟨1⟩, 0, 2, by decide, by decide⟩
        message := some "<b>"
        color := some (.rgb 1 2 3) }
    let d : Diagnostic := { level := .error, labels := [label] }
    ∃ text, ∀ color, let r := ofAll (.withColor {} color) ⟨[⟨s, s.name, none⟩]⟩ [d]
      r.write .plain color = .ok text ∧
      (∃ out, r.write .ansi color = .ok out ∧ Ansi.strip out = text) ∧
      ∃ out, r.write .html color = .ok out ∧ Html.decode (Html.withoutTags out) = text := by
  intro s label d
  have hclean : d.IsClean := by
    refine ⟨by decide, by decide, by decide, by decide, by decide, by decide⟩
  obtain ⟨text, htext⟩ := formats_agree {} ⟨[⟨s, s.name, none⟩]⟩ [d] Theme.isValid_default
    (by decide) (List.forall_mem_singleton.2 hclean)
  refine ⟨text, fun color => ?_⟩
  obtain ⟨hplain, ⟨ansi, hansi, hstrip, -⟩, html, hhtml, hdecode, -⟩ := htext color
  exact ⟨hplain, ⟨ansi, hansi, hstrip⟩, html, hhtml, hdecode⟩

end Report

end SourceReport
