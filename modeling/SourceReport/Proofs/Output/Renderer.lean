import SourceReport.Output.Sink
import SourceReport.Proofs.Output.Agreement
import SourceReport.Proofs.Report.Drawing

/-!
# Rendering to an output

A renderer keeps the settings, the sources, the styles of the labels and an output of any kind. The
output takes events one by one, and each may fail. A report is drawn with the styles that are kept
and its rows are sent to the output; a fault of either ends it.

* `feed` sends events to an output, up to the first that fails.
* `Renderer.render` renders a diagnostic, with the styles of its labels in place of those kept.

Results:
* `feed_append`: events are sent in order.
* `Renderer.render_eq`: drawing is no fault, so the output alone decides how rendering ends.
* `Renderer.render_total`: an output that does not fail takes every report, and every look-up is one
  of an offset between two characters of its source.
-/

namespace SourceReport

/-- What keeps a report from being rendered. -/
inductive RenderFault (ε : Type) where
  | draw (e : DrawFault)
  | write (e : ε)

/-- Sends events to an output in order; answers the output as the last event it takes leaves it, and
the fault of the next one. -/
def feed {σ ε : Type} (send : σ → Event → Except ε σ) : σ → List Event → σ × Option ε
  | out, [] => (out, none)
  | out, e :: events =>
    match send out e with
    | .ok out => feed send out events
    | .error fault => (out, some fault)

/-- A renderer with its output. -/
structure Renderer (σ : Type) where
  settings : Settings
  registry : Registry
  /-- The styles of the labels of the diagnostic that was rendered last. -/
  styles : List Style
  out : σ

namespace Renderer

variable {σ ε : Type} (send : σ → Event → Except ε σ)

/-- Sends rows to the output. -/
def emit (r : Renderer σ) (rows : List Row) : Renderer σ × Option ε :=
  let (out, fault) := feed send r.out (rows.flatMap (Row.events r.settings.color))
  ({ r with out := out }, fault)

/-- Renders a diagnostic; answers its issues. -/
def render (r : Renderer σ) (d : Diagnostic) :
    Renderer σ × Except (RenderFault ε) (List Issue) :=
  let r := { r with styles := labelStyles r.settings d }
  match Report.draw r.settings r.registry r.styles d with
  | .error e => (r, .error (.draw e))
  | .ok report =>
    match r.emit send report.rows with
    | (r, none) => (r, .ok report.issues)
    | (r, some e) => (r, .error (.write e))

end Renderer

/-! ## Events -/

section Feed

variable {σ ε : Type} {send : σ → Event → Except ε σ}

/-- **Events are sent in order**: the second of two sequences if the first one is taken. -/
theorem feed_append (out : σ) (front back : List Event) :
    feed send out (front ++ back) =
      match feed send out front with
      | (out, none) => feed send out back
      | (out, some e) => (out, some e) := by
  induction front generalizing out with
  | nil => rfl
  | cons e front ih =>
    rw [List.cons_append, feed, feed]
    cases send out e with
    | ok next => exact ih next
    | error fault => rfl

/-- An output that takes every event takes all of them. -/
theorem feed_of_take (take : σ → Event → σ) (out : σ) (events : List Event) :
    feed (fun out e => (.ok (take out e) : Except ε σ)) out events =
      (events.foldl take out, none) := by
  induction events generalizing out with
  | nil => rfl
  | cons e events ih =>
    rw [feed, List.foldl_cons]
    exact ih (take out e)

end Feed

/-- A sink is fed as it is sent all events. -/
theorem Sink.sendAll_eq_feed (s : Sink) (events : List Event) :
    s.sendAll events =
      match feed Sink.send s events with
      | (s, none) => .ok s
      | (_, some e) => .error e := by
  unfold sendAll
  induction events generalizing s with
  | nil => rfl
  | cons e events ih =>
    rw [List.foldlM_cons, feed]
    cases s.send e with
    | ok next => exact ih next
    | error fault => rfl

/-! ## Totality -/

/-- **Drawing is no fault**: the output takes the events of the report, or its own fault ends it. -/
theorem Renderer.render_eq {σ ε : Type} (send : σ → Event → Except ε σ) (r : Renderer σ)
    (d : Diagnostic) :
    let report := Report.ofDiagnostic r.settings r.registry d
    r.render send d =
      match feed send r.out (report.events r.settings.color) with
      | (out, none) => ({ r with styles := labelStyles r.settings d, out := out },
          .ok report.issues)
      | (out, some e) => ({ r with styles := labelStyles r.settings d, out := out },
          .error (.write e)) := by
  intro report
  unfold render
  dsimp only
  rw [Report.draw_eq]
  dsimp only [emit]
  rw [← Report.events]
  cases feed send r.out (report.events r.settings.color) with
  | mk out fault => cases fault <;> rfl

/-- A sink that writes a report takes its events. -/
theorem Sink.feed_eq_of_write {report : Report} {format : Format} {color : Bool} {written : Text}
    (h : report.write format color = .ok written) :
    ∃ s, feed Sink.send { format := format } (report.events color) = (s, none) ∧
      s.written = written := by
  unfold Report.write at h
  rw [Sink.sendAll_eq_feed] at h
  cases hfeed : feed Sink.send { format := format } (report.events color) with
  | mk s fault =>
    rw [hfeed] at h
    cases fault with
    | none => exact ⟨s, rfl, Except.ok.inj h⟩
    | some e => cases h

/-- **Rendering is total**: no look-up misses its line, its place, its lane or its cells, and no
stroke misses its row, so that only an output can fail. One that takes every event takes the report,
whatever styles are left of the last one, and the issues are answered. Look-ups are made of offsets
between two characters of a source. Sinks of all formats take the report, if valid colors are asked
of those that write escape sequences. -/
theorem Renderer.render_total {σ ε : Type} (r : Renderer σ) (d : Diagnostic) :
    let report := Report.ofDiagnostic r.settings r.registry d
    let styles := labelStyles r.settings d
    Report.draw r.settings r.registry styles d = .ok report ∧
      (∀ (send : σ → Event → Except ε σ) (e : DrawFault),
        (r.render send d).2 ≠ .error (.draw e)) ∧
      (∀ take : σ → Event → σ, r.render (fun out e => (.ok (take out e) : Except ε σ)) d =
        (⟨r.settings, r.registry, styles, (report.events r.settings.color).foldl take r.out⟩,
          .ok report.issues)) ∧
      (∀ file s, r.registry.source? file = some s →
        d.LooksInside file s ∧ d.FindsAll r.settings r.registry file s) ∧
      ∀ format : Format, (format = .ansi → r.settings.theme.IsValid ∧
          ∀ l ∈ d.labels, ∀ c ∈ l.color, c.isValid = true) →
        ∃ s : Sink, render Sink.send ⟨r.settings, r.registry, r.styles, { format := format }⟩ d =
            (⟨r.settings, r.registry, styles, s⟩, .ok report.issues) ∧
          report.write format r.settings.color = .ok s.written := by
  intro report styles
  refine ⟨Report.draw_eq r.settings r.registry d, fun send e => ?_, fun take => ?_,
    fun file s hs => ⟨d.looksInside file s, d.findsAll r.settings hs⟩, fun format hcolors => ?_⟩
  · rw [render_eq]
    cases feed send r.out (report.events r.settings.color) with
    | mk out fault => cases fault <;> exact nofun
  · rw [render_eq, feed_of_take]
  · have hshowable : format = .ansi → ∀ p ∈ report.pieces r.settings.color, p.style.IsShowable := by
      intro hansi
      obtain ⟨htheme, hlabels⟩ := hcolors hansi
      have hin : report.IsIn .all := Report.isIn_ofDiagnostic htheme
        (fun e _ => e.shown.display.isIn_all) (Diagnostic.isIn_all hlabels)
      exact fun p hp => (hin.pieces r.settings.color p hp).1
    obtain ⟨written, hwritten⟩ := Report.exists_write_of_styles hshowable
    obtain ⟨s, hfeed, rfl⟩ := Sink.feed_eq_of_write hwritten
    refine ⟨s, ?_, hwritten⟩
    rw [render_eq]
    dsimp only
    rw [hfeed]

/-- Three labels share lines of the source, two of them with an offset that it does not have, and a
fourth one points into a source that is missing. -/
theorem Renderer.render_total_overlapping :
    let s : Source := ⟨.snippet "a", "å\tb\ncd\nef\n", by decide, ⟨1⟩, false⟩
    let outer : Label :=
      { span := ⟨⟨1⟩, 1, 8, by decide, by decide⟩
        message := some "x\ny"
        color := some (.named "red") }
    let inner : Label := { span := ⟨⟨1⟩, 5, 90, by decide, by decide⟩, message := some "z" }
    let single : Label := { span := ⟨⟨1⟩, 0, 3, by decide, by decide⟩, message := some "w" }
    let lost : Label := { span := ⟨⟨7⟩, 0, 1, by decide, by decide⟩ }
    let d : Diagnostic :=
      { level := .error, labels := [outer, inner, single, lost], location := some ⟨⟨1⟩, some (-4)⟩ }
    let registry : Registry := ⟨[⟨s, s.name, none⟩]⟩
    let issues : List Issue := [⟨⟨1⟩, some 0, .offset (.insideCharacter 1)⟩,
      ⟨⟨1⟩, some 1, .offset (.indexTooLarge 90 11)⟩, ⟨⟨7⟩, some 3, .unregistered⟩]
    registry.source? ⟨1⟩ = some s ∧ d.LooksInside ⟨1⟩ s ∧
      ((({} : Settings).theme.IsValid ∧ ∀ l ∈ d.labels, ∀ c ∈ l.color, c.isValid = true) ∧
        ∃ out : Sink, (render Sink.send ⟨{}, registry, [], { format := .ansi }⟩ d).2 = .ok issues ∧
          (Report.ofDiagnostic {} registry d).write .ansi true = .ok out.written) := by
  intro s outer inner single lost d registry issues
  have hs : registry.source? ⟨1⟩ = some s := rfl
  have hcolors : ({} : Settings).theme.IsValid ∧ ∀ l ∈ d.labels, ∀ c ∈ l.color, c.isValid = true :=
    ⟨Theme.isValid_default, by decide⟩
  have hissues : (Report.ofDiagnostic {} registry d).issues = issues := by decide +kernel
  obtain ⟨-, -, -, hlook, hformat⟩ :=
    render_total (ε := Ansi.UnknownColor) ⟨{}, registry, [], ([] : List Event)⟩ d
  obtain ⟨out, hrender, hwrite⟩ := hformat .ansi fun _ => hcolors
  refine ⟨hs, (hlook ⟨1⟩ s hs).1, hcolors, out, ?_, hwrite⟩
  rw [hrender, ← hissues]

end SourceReport
