import SourceReport.Output.Ansi
import SourceReport.Output.Event
import SourceReport.Output.Html

/-!
# Sinks

A sink takes the events of a report and writes them in a format: as they are, with escape sequences,
or as markup. A `Tape` keeps the events themselves, as far as it has room.

* `Sink.send` takes one event, `Sink.sendAll` a sequence of them up to the first that fails.
* `Tape.record` is the same for tapes.
-/

namespace SourceReport

/-- How styles show up in the output. -/
inductive Format where
  /-- Not at all. -/
  | plain
  /-- As escape sequences. -/
  | ansi
  /-- As elements of HTML. -/
  | html
deriving DecidableEq

/-- A text in a style. -/
def Format.write (f : Format) (s : Style) (t : Text) : Except Ansi.UnknownColor Text :=
  match f with
  | .plain => .ok t
  | .ansi => Ansi.write s t
  | .html => .ok (Html.write s t)

/-- An output with the style that is set. -/
structure Sink where
  format : Format
  style : Style := .plain
  written : Text := []

namespace Sink

/-- Takes an event. -/
def send (s : Sink) : Event → Except Ansi.UnknownColor Sink
  | .style style => .ok { s with style := style }
  | .text t => (s.format.write s.style t).map fun out => { s with written := s.written ++ out }
  | .reset => .ok { s with style := .plain }

/-- Takes events in order. -/
def sendAll (s : Sink) (events : List Event) : Except Ansi.UnknownColor Sink :=
  events.foldlM send s

end Sink

/-- Writes a report. -/
def Report.write (r : Report) (format : Format) (color : Bool) : Except Ansi.UnknownColor Text :=
  (Sink.sendAll { format := format } (r.events color)).map (·.written)

/-- Events kept in order. -/
structure Tape where
  events : List Event := []
  /-- The number of texts that still fit; none if there is no limit. -/
  room : Option Nat := none

/-- A report could not be written. -/
structure WriteError where
  reason : Text
deriving DecidableEq

/-- The message gives the reason. -/
def WriteError.message (e : WriteError) : Text := "cannot write diagnostic: " ++ e.reason

namespace Tape

/-- Takes events in order; answers the tape and, if it is full, the error. -/
def record (t : Tape) : List Event → Tape × Option WriteError
  | [] => (t, none)
  | .text x :: rest =>
    match t.room with
    | some 0 => (t, some ⟨"disk full"⟩)
    | room => record ⟨t.events ++ [.text x], room.map (· - 1)⟩ rest
  | e :: rest => record { t with events := t.events ++ [e] } rest

end Tape

end SourceReport
