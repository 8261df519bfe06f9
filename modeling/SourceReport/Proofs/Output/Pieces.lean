import Mathlib.Data.List.Forall2
import SourceReport.Proofs.Output.Sink

/-!
# Pieces of output

A sink writes every text it is sent in the style that is set at that time. What it writes of a
report consists of one piece for each run of its rows and of the newlines between them, whatever the
format is: a property of single pieces that carries over to joined texts holds for whole reports.

* `Event.pieces` lists the texts of events with the styles in which they are written,
  `Report.pieces` those of a report.
* `Report.runs` lists the runs of a report, each row with its newline.

Results:
* `Sink.sendAll_eq`: a sink writes the pieces in order, up to the first that fails.
* `Report.pieces_eq`: the pieces of a report are its runs.
* `Report.exists_write`: what is written of a report is related to its text if the pieces are.
-/

namespace SourceReport

section Computations

variable {α β ε : Type} {f : α → Except ε β}

/-- A list of computations succeeds if each of them does. -/
theorem exists_mapM_eq_ok {R : α → β → Prop} {xs : List α}
    (h : ∀ x ∈ xs, ∃ y, f x = .ok y ∧ R x y) : ∃ ys, xs.mapM f = .ok ys ∧ List.Forall₂ R xs ys := by
  induction xs with
  | nil => exact ⟨[], rfl, List.Forall₂.nil⟩
  | cons x xs ih =>
    obtain ⟨y, hy, hrel⟩ := h x List.mem_cons_self
    obtain ⟨ys, hys, hrels⟩ := ih fun x hx => h x (List.mem_cons_of_mem _ hx)
    refine ⟨y :: ys, ?_, List.Forall₂.cons hrel hrels⟩
    rw [List.mapM_cons, hy, hys]
    rfl

end Computations

/-- A relation between texts that carries over to joined texts holds for texts joined from parts. -/
theorem related_flatten {α : Type} {R : Text → Text → Prop} {text : α → Text} {xs : List α}
    {outs : List Text} (hnil : R [] []) (happend : ∀ {a b c d}, R a b → R c d → R (a ++ c) (b ++ d))
    (h : List.Forall₂ (fun x out => R out (text x)) xs outs) :
    R outs.flatten (xs.flatMap text) := by
  induction h with
  | nil => exact hnil
  | cons hx _ ih => exact happend hx ih

/-! ## Pieces -/

/-- A text in a style. -/
structure Piece where
  style : Style
  text : Text

/-- What is written of a piece. -/
def Piece.write (format : Format) (p : Piece) : Except Ansi.UnknownColor Text :=
  format.write p.style p.text

/-- The texts of events with the styles that are set when they come, beginning with a style. -/
def Event.pieces : Style → List Event → List Piece
  | _, [] => []
  | _, .style s :: rest => pieces s rest
  | s, .text t :: rest => ⟨s, t⟩ :: pieces s rest
  | _, .reset :: rest => pieces .plain rest

/-- **A sink writes the pieces** in order, up to the first that fails. -/
theorem Sink.sendAll_eq (s : Sink) (events : List Event) :
    (s.sendAll events).map (·.written) =
      ((Event.pieces s.style events).mapM (Piece.write s.format)).map
        fun outs => s.written ++ outs.flatten := by
  unfold sendAll
  induction events generalizing s with
  | nil => exact congrArg Except.ok (List.append_nil _).symm
  | cons e events ih =>
    rw [List.foldlM_cons]
    cases e with
    | style style => exact ih { s with style := style }
    | reset => exact ih { s with style := .plain }
    | text t =>
      have hpieces : Event.pieces s.style (.text t :: events) =
          ⟨s.style, t⟩ :: Event.pieces s.style events := rfl
      have hpiece : Piece.write s.format ⟨s.style, t⟩ = s.format.write s.style t := rfl
      rw [hpieces, List.mapM_cons, hpiece, send]
      cases s.format.write s.style t with
      | error e => rfl
      | ok out =>
        refine (ih { s with written := s.written ++ out }).trans ?_
        dsimp only [bind, Except.bind]
        cases (Event.pieces s.style events).mapM (Piece.write s.format) with
        | error e => rfl
        | ok outs => exact congrArg Except.ok (List.append_assoc _ _ _)

/-! ## Reports -/

/-- The piece of a run. -/
def Run.piece (color : Bool) (r : Run) : Piece where
  style := (r.style.filter fun s => color && !s.isPlain).getD .plain
  text := r.text

theorem Event.pieces_run (color : Bool) (r : Run) (rest : List Event) :
    pieces .plain (r.events color ++ rest) = r.piece color :: pieces .plain rest := by
  unfold Run.events Run.piece
  cases r.style.filter fun s => color && !s.isPlain <;> rfl

theorem Event.pieces_runs (color : Bool) (runs : List Run) :
    pieces .plain (runs.flatMap (Run.events color)) = runs.map (Run.piece color) := by
  induction runs with
  | nil => rfl
  | cons r runs ih => rw [List.flatMap_cons, pieces_run, ih, List.map_cons]

namespace Report

variable (r : Report)

/-- The runs of a report, with a newline behind each row. -/
def runs : List Run := r.rows.flatMap fun row => row.printed ++ [⟨"\n", none⟩]

/-- The pieces of a report. -/
def pieces (color : Bool) : List Piece := Event.pieces .plain (r.events color)

/-- **The pieces of a report** are its runs. -/
theorem pieces_eq (color : Bool) : r.pieces color = r.runs.map (Run.piece color) := by
  have hevents : r.events color = r.runs.flatMap (Run.events color) := by
    rw [events, runs, List.flatMap_assoc]
    refine List.flatMap_congr fun row _ => ?_
    rw [List.flatMap_append]
    rfl
  rw [pieces, hevents, Event.pieces_runs]

theorem write_eq (format : Format) (color : Bool) :
    r.write format color = ((r.pieces color).mapM (Piece.write format)).map List.flatten :=
  Sink.sendAll_eq { format := format } (r.events color)

theorem runsText_runs :
    runsText r.runs = r.rows.flatMap fun row => (row.written ++ "\n" : Text) := by
  rw [runs, runsText, List.flatMap_assoc]
  refine List.flatMap_congr fun row _ => ?_
  rw [List.flatMap_append]
  rfl

theorem runsText_runs_eq_flatMap (color : Bool) :
    runsText r.runs = (r.pieces color).flatMap (·.text) := by
  rw [pieces_eq, List.flatMap_map]
  rfl

variable {r}

/-- **What is written of a report** is related to its text if what is written of each piece is
related to the text of the piece. -/
theorem exists_write {R : Text → Text → Prop} {format : Format} {color : Bool} (hnil : R [] [])
    (happend : ∀ {a b c d}, R a b → R c d → R (a ++ c) (b ++ d))
    (h : ∀ p ∈ r.pieces color, ∃ out, p.write format = .ok out ∧ R out p.text) :
    ∃ out, r.write format color = .ok out ∧ R out (runsText r.runs) := by
  obtain ⟨outs, houts, hrel⟩ := exists_mapM_eq_ok h
  refine ⟨outs.flatten, ?_, ?_⟩
  · rw [write_eq, houts]
    rfl
  · rw [runsText_runs_eq_flatMap r color]
    exact related_flatten hnil happend hrel

end Report

end SourceReport
