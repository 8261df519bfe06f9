import Mathlib.Data.List.Basic
import SourceReport.Report.Margin
import SourceReport.Source.Error

/-!
# Strokes on a row of cells

A row of cells can be drawn in two ways: each cell is asked what it shows, or strokes are put on a
blank row of a fixed size, one after the other. A stroke outside the row is a fault, and of several
strokes on a cell the last one stays.

* `DrawFault` lists what can go wrong while a report is drawn.
* `paint` puts strokes on a row, `lastOn?` is what they leave on a cell.

Results:
* `paint_eq_ok_iff`: strokes can be put on a row exactly if all of them lie in it.
* `paint_eq`: the row they leave, cell by cell.
* `lastOn?_append`, `lastOn?_flatMap`: the last of several groups of strokes.
-/

namespace SourceReport

/-- What can go wrong while a report is drawn. -/
inductive DrawFault where
  /-- Something is looked up in a source that is not there. -/
  | lookup (e : LookupError)
  /-- A label has no lane. -/
  | noLane (label : Nat)
  /-- A label has no cells. -/
  | noCells (label : Nat)
  /-- The largest element of nothing is asked for. -/
  | nothing
  /-- A cell lies outside its row. -/
  | outside (cell size : Nat)
deriving DecidableEq

/-- A cell that is drawn at a place of a row. -/
structure Stroke where
  cell : Nat
  drawn : Cell

/-- Puts a stroke on a row. -/
def Stroke.put (row : List Cell) (s : Stroke) : Except DrawFault (List Cell) :=
  if s.cell < row.length then .ok (row.set s.cell s.drawn) else .error (.outside s.cell row.length)

/-- Puts strokes on a blank row in order. -/
def paint (size : Nat) (strokes : List Stroke) : Except DrawFault (List Cell) :=
  strokes.foldlM Stroke.put (List.replicate size .blank)

/-- The last stroke on a cell. -/
def lastOn? : List Stroke → Nat → Option Cell
  | [], _ => none
  | s :: rest, cell => (lastOn? rest cell).or (if s.cell = cell then some s.drawn else none)

variable {strokes more : List Stroke} {cell size : Nat}

/-! ## The last stroke on a cell -/

theorem lastOn?_append (strokes more : List Stroke) (cell : Nat) :
    lastOn? (strokes ++ more) cell = (lastOn? more cell).or (lastOn? strokes cell) := by
  induction strokes with
  | nil => rw [List.nil_append, lastOn?, Option.or_none]
  | cons s strokes ih => rw [List.cons_append, lastOn?, lastOn?, ih, Option.or_assoc]

theorem lastOn?_singleton (s : Stroke) (cell : Nat) :
    lastOn? [s] cell = if s.cell = cell then some s.drawn else none := Option.none_or

theorem lastOn?_eq_none (h : ∀ s ∈ strokes, s.cell ≠ cell) : lastOn? strokes cell = none := by
  induction strokes with
  | nil => rfl
  | cons s strokes ih =>
    rw [lastOn?, ih fun t ht => h t (List.mem_cons_of_mem s ht), Option.none_or,
      if_neg (h s List.mem_cons_self)]

/-- What is drawn on a cell by several strokes that draw the same. -/
theorem lastOn?_eq_some {c : Cell} (hmem : ∃ s ∈ strokes, s.cell = cell)
    (h : ∀ s ∈ strokes, s.cell = cell → s.drawn = c) : lastOn? strokes cell = some c := by
  induction strokes with
  | nil =>
    obtain ⟨s, hs, -⟩ := hmem
    cases hs
  | cons s strokes ih =>
    have hrest : ∀ t ∈ strokes, t.cell = cell → t.drawn = c :=
      fun t ht => h t (List.mem_cons_of_mem s ht)
    rw [lastOn?]
    by_cases hlater : ∃ t ∈ strokes, t.cell = cell
    · rw [ih hlater hrest, Option.some_or]
    · push Not at hlater
      obtain ⟨t, ht, hcell⟩ := hmem
      have hs : s.cell = cell := by
        rcases List.mem_cons.1 ht with rfl | ht
        · exact hcell
        · exact absurd hcell (hlater t ht)
      rw [lastOn?_eq_none hlater, Option.none_or, if_pos hs, h s List.mem_cons_self hs]

/-- **The last of several groups** that draw on a cell. -/
theorem lastOn?_flatMap {α : Type} {f : α → List Stroke} {xs : List α} {draws : α → Bool}
    {drawn : α → Cell}
    (h : ∀ x ∈ xs, lastOn? (f x) cell = if draws x then some (drawn x) else none) :
    lastOn? (xs.flatMap f) cell = (xs.filter draws).getLast?.map drawn := by
  induction xs with
  | nil => rfl
  | cons x xs ih =>
    rw [List.flatMap_cons, lastOn?_append, ih fun y hy => h y (List.mem_cons_of_mem x hy),
      h x List.mem_cons_self, List.filter_cons]
    by_cases hx : draws x = true
    · rw [if_pos hx, if_pos hx, List.getLast?_cons]
      cases (xs.filter draws).getLast? with
      | none => rfl
      | some y => rfl
    · rw [if_neg hx, if_neg hx, Option.or_none]

/-! ## Rows -/

theorem Stroke.put_eq {row : List Cell} {s : Stroke} (h : s.cell < row.length) :
    s.put row = .ok (row.set s.cell s.drawn) := if_pos h

theorem getElem?_foldlM_put {row : List Cell} (h : ∀ s ∈ strokes, s.cell < row.length) :
    ∃ painted, strokes.foldlM Stroke.put row = .ok painted ∧ painted.length = row.length ∧
      ∀ cell, cell < row.length → painted[cell]? = (lastOn? strokes cell).or row[cell]? := by
  induction strokes generalizing row with
  | nil => exact ⟨row, rfl, rfl, fun _ _ => Option.none_or.symm⟩
  | cons s strokes ih =>
    have hs := h s List.mem_cons_self
    have hrest : ∀ t ∈ strokes, t.cell < (row.set s.cell s.drawn).length := fun t ht => by
      rw [List.length_set]
      exact h t (List.mem_cons_of_mem s ht)
    obtain ⟨painted, hpaint, hlength, hcells⟩ := ih hrest
    rw [List.length_set] at hlength hcells
    refine ⟨painted, ?_, hlength, fun cell hcell => ?_⟩
    · rw [List.foldlM_cons, Stroke.put_eq hs]
      exact hpaint
    · rw [hcells cell hcell, lastOn?, Option.or_assoc, List.getElem?_set]
      by_cases heq : s.cell = cell
      · rw [if_pos heq, if_pos heq, if_pos (heq ▸ hs), Option.some_or]
      · rw [if_neg heq, if_neg heq, Option.none_or]

/-- **The row that strokes leave** shows the last one on each cell. -/
theorem paint_eq (h : ∀ s ∈ strokes, s.cell < size) :
    paint size strokes =
      .ok ((List.range size).map fun cell => (lastOn? strokes cell).getD .blank) := by
  have hrow : ∀ s ∈ strokes, s.cell < (List.replicate size Cell.blank).length := by
    simpa using h
  obtain ⟨painted, hpaint, hlength, hcells⟩ := getElem?_foldlM_put hrow
  rw [paint, hpaint]
  refine congrArg Except.ok (List.ext_getElem? fun cell => ?_)
  rw [List.length_replicate] at hlength hcells
  by_cases hcell : cell < size
  · rw [hcells cell hcell, List.getElem?_map, List.getElem?_range hcell,
      List.getElem?_replicate_of_lt hcell, Option.map_some]
    cases lastOn? strokes cell with
    | none => rfl
    | some c => rfl
  · rw [List.getElem?_eq_none (by omega), List.getElem?_eq_none (by simpa using hcell)]

theorem cell_lt_of_foldlM_put {row painted : List Cell}
    (h : strokes.foldlM Stroke.put row = .ok painted) : ∀ s ∈ strokes, s.cell < row.length := by
  induction strokes generalizing row with
  | nil => exact fun _ hs => absurd hs List.not_mem_nil
  | cons s strokes ih =>
    rw [List.foldlM_cons] at h
    by_cases hs : s.cell < row.length
    · rw [Stroke.put_eq hs] at h
      have hrest := ih h
      rw [List.length_set] at hrest
      intro t ht
      rcases List.mem_cons.1 ht with rfl | ht
      · exact hs
      · exact hrest t ht
    · rw [Stroke.put, if_neg hs] at h
      cases h

/-- **Strokes can be put on a row** exactly if all of them lie in it. -/
theorem paint_eq_ok_iff : (∃ row, paint size strokes = .ok row) ↔ ∀ s ∈ strokes, s.cell < size := by
  constructor
  · rintro ⟨row, h⟩
    have hlt := cell_lt_of_foldlM_put h
    rwa [List.length_replicate] at hlt
  · exact fun h => ⟨_, paint_eq h⟩

end SourceReport
