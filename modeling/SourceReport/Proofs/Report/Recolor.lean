import Mathlib.Data.List.Basic
import SourceReport.Report.Basic

/-!
# The setting for color

Whether styles are written is decided when a report is written. Its rows do not depend on it.

Results:
* `Report.ofAll_withColor`: reports with color and without it have the same rows and issues.
-/

namespace SourceReport

/-- The settings with color or without it. -/
def Settings.withColor (s : Settings) (color : Bool) : Settings := { s with color := color }

/-- The pen with such settings. -/
def Pen.withColor (pen : Pen) (color : Bool) : Pen :=
  { pen with settings := pen.settings.withColor color }

/-- The styles of labels depend on two settings: the palette and the theme. -/
theorem labelStyles_congr (settings other : Settings) (hpalette : other.palette = settings.palette)
    (htheme : other.theme = settings.theme) (d : Diagnostic) :
    labelStyles other d = labelStyles settings d := by
  have hfrom : ∀ (labels : List Label) (p : Palette),
      stylesFrom other d.level p labels = stylesFrom settings d.level p labels := by
    intro labels
    induction labels with
    | nil => exact fun _ => rfl
    | cons l labels ih =>
      intro p
      rw [stylesFrom, stylesFrom, ih, ih, hpalette, htheme]
  exact hfrom d.labels .default

variable (color : Bool)

theorem labelStyles_withColor (settings : Settings) (d : Diagnostic) :
    labelStyles (settings.withColor color) d = labelStyles settings d :=
  labelStyles_congr settings (settings.withColor color) rfl rfl d

namespace Snippet

variable (pen : Pen) (s : Snippet)

theorem markMessages_withColor (margin : List Cell) (column : Nat) (marks : Marks) :
    markMessages (pen.withColor color) margin column marks =
      markMessages pen margin column marks := by
  induction marks with
  | nil => rfl
  | cons m later ih =>
    obtain ⟨p, range⟩ := m
    rw [markMessages, markMessages, ih]
    rfl

theorem endingMessages_withColor (line : Nat) (endings : Lanes) :
    endingMessages (pen.withColor color) s line endings = endingMessages pen s line endings := by
  induction endings with
  | nil => rfl
  | cons e later ih =>
    obtain ⟨p, lane⟩ := e
    rw [endingMessages, endingMessages, ih]
    rfl

theorem markRows_withColor (line : Nat) (pending : List Placement) (marks : Marks) :
    markRows (pen.withColor color) s line pending marks = markRows pen s line pending marks := by
  unfold markRows
  dsimp only
  rw [markMessages_withColor]
  rfl

theorem lineRows_withColor (source : Source) (line : Nat) :
    lineRows (pen.withColor color) s source line = lineRows pen s source line := by
  unfold lineRows
  dsimp only
  rw [markRows_withColor, endingMessages_withColor]
  rfl

/-- **The rows of a snippet** do not depend on the setting. -/
theorem bodyRows_withColor : bodyRows (pen.withColor color) s = bodyRows pen s := by
  have hentry : ∀ source, entryRows (pen.withColor color) s source = entryRows pen s source := by
    intro source
    funext entry
    cases entry with
    | line index => exact lineRows_withColor color pen s source index
    | skipped first count => rfl
  unfold bodyRows
  cases s.source with
  | none => rfl
  | some source =>
    dsimp only
    rw [hentry]
    rfl

theorem allRows_withColor (snippets : List Snippet) :
    allRows (pen.withColor color) snippets = allRows pen snippets := by
  unfold allRows
  refine List.flatMap_congr fun e _ => ?_
  obtain ⟨s, n⟩ := e
  dsimp only
  rw [bodyRows_withColor]
  rfl

end Snippet

namespace Report

variable (settings : Settings) (registry : Registry)

theorem ofDiagnostic_withColor (d : Diagnostic) :
    ofDiagnostic (settings.withColor color) registry d = ofDiagnostic settings registry d := by
  have hdetail : (settings.withColor color).detail = settings.detail := rfl
  have hrich : ∀ (pen : Pen) (snippets : List Snippet),
      richRows (pen.withColor color) d snippets = richRows pen d snippets := by
    intro pen snippets
    unfold richRows
    rw [Snippet.allRows_withColor]
    rfl
  unfold ofDiagnostic
  rw [labelStyles_withColor, hdetail]
  cases settings.detail with
  | rich => exact congrArg (Report.mk · _) (hrich ⟨settings, _, _⟩ _)
  | medium => rfl
  | short => rfl

/-- **Reports** do not depend on the setting. -/
theorem ofAll_withColor (ds : List Diagnostic) :
    ofAll (settings.withColor color) registry ds = ofAll settings registry ds := by
  have hone : ofDiagnostic (settings.withColor color) registry = ofDiagnostic settings registry :=
    funext (ofDiagnostic_withColor color settings registry)
  unfold ofAll
  rw [hone]
  rfl

end Report

end SourceReport
