import Mathlib.Data.List.Basic
import SourceReport.Output.Sink
import SourceReport.Proofs.Report.Row

/-!
# Plain output

A sink without styles writes the texts it is sent one after the other. A report is written to it
row by row: what is written of a row, and a newline. The settings for color make no difference.

Results:
* `Sink.sendAll_plain`: a sink without styles takes all events.
* `Report.write_plain`: a report without styles.
* `Report.written_eq_of_write_plain_eq`: rows can be told apart in its text.
-/

namespace SourceReport

/-- What a sink without styles writes for an event. -/
def Event.characters : Event → Text
  | .text t => t
  | .style _ => []
  | .reset => []

namespace Sink

variable {s : Sink}

theorem send_plain (h : s.format = .plain) (e : Event) :
    ∃ t, s.send e = .ok t ∧ t.format = .plain ∧ t.written = s.written ++ e.characters := by
  cases e with
  | style style => exact ⟨_, rfl, h, (List.append_nil _).symm⟩
  | text t =>
    refine ⟨{ s with written := s.written ++ t }, ?_, h, rfl⟩
    rw [send, h]
    rfl
  | reset => exact ⟨_, rfl, h, (List.append_nil _).symm⟩

/-- **A sink without styles** takes all events, and writes their texts. -/
theorem sendAll_plain (h : s.format = .plain) (events : List Event) :
    ∃ t, s.sendAll events = .ok t ∧ t.written = s.written ++ events.flatMap Event.characters := by
  unfold sendAll
  induction events generalizing s with
  | nil => exact ⟨s, rfl, (List.append_nil _).symm⟩
  | cons e events ih =>
    obtain ⟨t, hsend, hformat, hwritten⟩ := send_plain h e
    obtain ⟨u, hrest, hu⟩ := ih hformat
    refine ⟨u, ?_, ?_⟩
    · rw [List.foldlM_cons, hsend]
      exact hrest
    · rw [hu, hwritten, List.flatMap_cons, List.append_assoc]

end Sink

theorem Run.characters_events (color : Bool) (r : Run) :
    (r.events color).flatMap Event.characters = r.text := by
  unfold events
  split <;> exact List.append_nil _

theorem Row.characters_events (color : Bool) (r : Row) :
    (r.events color).flatMap Event.characters = r.written ++ "\n" := by
  have hruns : ∀ runs : List Run,
      (runs.flatMap (Run.events color)).flatMap Event.characters = runsText runs := by
    intro runs
    rw [List.flatMap_assoc, runsText]
    exact List.flatMap_congr fun run _ => run.characters_events color
  rw [events, List.flatMap_append, hruns]
  rfl

/-- **A report without styles** is written row by row. -/
theorem Report.write_plain (r : Report) (color : Bool) :
    r.write .plain color = .ok (r.rows.flatMap fun row => row.written ++ "\n") := by
  have hplain : ({ format := .plain } : Sink).format = .plain := rfl
  obtain ⟨s, hs, hwritten⟩ := Sink.sendAll_plain hplain (r.events color)
  have hrows : (r.events color).flatMap Event.characters =
      r.rows.flatMap fun row => (row.written ++ "\n" : Text) := by
    rw [events, List.flatMap_assoc]
    exact List.flatMap_congr fun row _ => row.characters_events color
  unfold write
  rw [hs]
  exact congrArg Except.ok (hwritten.trans hrows)

/-- Reports with one text that differ in one row have the same text in that row. -/
theorem Report.written_eq_of_write_plain_eq {r r' : Report} {color : Bool} {above below : List Row}
    {row row' : Row} (hr : r.rows = above ++ row :: below) (hr' : r'.rows = above ++ row' :: below)
    (h : r.write .plain color = r'.write .plain color) : row.written = row'.written := by
  rw [write_plain, write_plain, hr, hr', List.flatMap_append, List.flatMap_append,
    List.flatMap_cons, List.flatMap_cons, Except.ok.injEq] at h
  exact List.append_cancel_right (List.append_cancel_right (List.append_cancel_left h))

end SourceReport
