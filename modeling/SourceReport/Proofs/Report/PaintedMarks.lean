import SourceReport.Proofs.Report.PaintedMargin
import SourceReport.Proofs.Report.Underline
import SourceReport.Proofs.Source.Dictionary

/-!
# Painted underlines and connectors

The rows below a source line can be painted: labels look up their cells by their indices, a
dictionary keeps the first connector that hangs at a cell, and the connectors of a message are
strokes on a row whose size is known before.

* `Marks.rangeOf` looks cells up, `Marks.hangers` are the connectors by their cells.
* `Marks.paintUnderline`, `paintHanging`, `paintConnectors` paint the rows.

Results:
* `Marks.lastOn?_hangingStrokes`: a cell shows the connector that hangs there.
* `Marks.paintUnderline_eq`, `paintHanging_eq`, `paintConnectors_eq`: all cells are found, a cell
  that is covered has an owner, and every stroke lies in its row. The rows are those that ask each
  cell.
-/

namespace SourceReport

/-- The largest of some numbers. -/
def largest : List Nat → Except DrawFault Nat
  | [] => .error .nothing
  | n :: rest => .ok (rest.foldl max n)

theorem largest_eq {ns : List Nat} (h : ns ≠ []) : largest ns = .ok (ns.foldl max 0) := by
  cases ns with
  | nil => exact absurd rfl h
  | cons n rest => rw [largest, List.foldl_cons, Nat.zero_max]

/-- The label that owns a cell which all of the labels cover. -/
def Placement.winner (ps : List Placement) : Except DrawFault Placement :=
  match owner? ps with
  | some p => .ok p
  | none => .error .nothing

namespace Marks

variable (pen : Pen)

/-- The cells of a label, looked up by its index. -/
def rangeOf (marks : Marks) (p : Placement) : Except DrawFault CellRange :=
  match marks.find? fun e => e.1.index = p.index with
  | some e => .ok e.2
  | none => .error (.noCells p.index)

/-- The labels by the cells where their connectors hang, the first one at each cell. -/
def hangers (marks : Marks) (ps : List Placement) :
    Except DrawFault (Dictionary Nat Placement) := do
  let cells ← ps.mapM fun p => do return ((← marks.rangeOf p).attach, p)
  return .ofFirsts cells

/-- Paints a cell that all of the labels cover. -/
def paintCovered : List Placement → Except DrawFault Cell
  | [] => return .blank
  | p :: ps => do
    let owner ← Placement.winner (p :: ps)
    return pen.draw owner <| match owner.label.emphasis with
      | .primary => pen.glyphs.primaryUnderline
      | .secondary => pen.glyphs.secondaryUnderline

/-- Paints a cell of the row of underlines. -/
def paintUnderlineCell (marks : Marks) (hung : Dictionary Nat Placement) (cell : Nat) :
    Except DrawFault Cell :=
  match hung.get? cell with
  | some p => return pen.draw p pen.glyphs.junction
  | none => do
    let covers ← (marks.map (·.1)).mapM fun p => do return (p, (← marks.rangeOf p).covers cell)
    paintCovered pen ((covers.filter (·.2)).map (·.1))

/-- Paints the row of underlines. -/
def paintUnderline (marks : Marks) : Except DrawFault (List Cell) := do
  let hung ← marks.hangers (Placement.messageOrder (marks.map (·.1)))
  let width ← largest (marks.map (·.2.stop))
  (List.range width).mapM (paintUnderlineCell pen marks hung)

/-- A stroke for each connector that hangs. -/
def hangingStrokes (hung : Dictionary Nat Placement) : List Stroke :=
  hung.entries.map fun e => ⟨e.1, pen.draw e.2 pen.glyphs.vertical⟩

/-- Paints the connectors in the further rows of a message. -/
def paintHanging (marks : Marks) (column : Nat) (later : List Placement) :
    Except DrawFault (List Cell) := do
  let hung ← marks.hangers later
  paint column (hangingStrokes pen hung)

/-- Paints the connectors in the first row of a message. -/
def paintConnectors (marks : Marks) (column : Nat) (later : List Placement) (p : Placement) :
    Except DrawFault (List Cell) := do
  let hung ← marks.hangers later
  let own := (← marks.rangeOf p).attach
  let corner := if own ∈ hung.keys then pen.glyphs.branch else pen.glyphs.bottomCorner
  paint column (hangingStrokes pen hung
    ++ ⟨own, pen.draw p corner⟩ :: pen.runStrokes p (own + 1) column hung.keys [])

/-- **Labels that cover a cell** have one that owns it. -/
theorem paintCovered_eq (ps : List Placement) :
    paintCovered pen ps = .ok (match Placement.owner? ps with
      | some p =>
        pen.draw p <| match p.label.emphasis with
          | .primary => pen.glyphs.primaryUnderline
          | .secondary => pen.glyphs.secondaryUnderline
      | none => .blank) := by
  cases ps with
  | nil =>
    have hnone : Placement.owner? [] = none := by simp [Placement.owner?, Placement.sortOn]
    rw [hnone]
    rfl
  | cons p ps =>
    obtain ⟨owner, howner⟩ := Placement.exists_owner? (List.cons_ne_nil p ps)
    have hwinner : Placement.winner (p :: ps) = .ok owner := by rw [Placement.winner, howner]
    rw [paintCovered, hwinner, howner]
    rfl

section Found

variable {marks hung : Marks} (hmarks : (marks.map (·.1.index)).Nodup)

include hmarks

/-- **Every label** finds its cells. -/
theorem rangeOf_eq {e : Placement × CellRange} (he : e ∈ marks) : marks.rangeOf e.1 = .ok e.2 := by
  unfold rangeOf
  cases hfind : marks.find? fun e' => e'.1.index = e.1.index with
  | none =>
    have hnone := List.find?_eq_none.1 hfind e he
    simp at hnone
  | some e' =>
    have hindex : e'.1.index = e.1.index := by simpa using List.find?_some hfind
    rw [List.inj_on_of_nodup_map hmarks (List.mem_of_find?_eq_some hfind) he hindex]

omit hmarks in
theorem lookup_attach (hung : Marks) (cell : Nat) :
    (hung.map fun e => (e.2.attach, e.1)).lookup cell = hung.attachedAt? cell := by
  unfold attachedAt?
  induction hung with
  | nil => rfl
  | cons e hung ih =>
    rw [List.map_cons, Dictionary.lookup_cons_ite, List.find?_cons, ih]
    by_cases he : e.2.attach = cell
    · simp [he]
    · simp [he, Ne.symm he]

/-- **The connectors of labels** are found by their cells. -/
theorem exists_hangers (hsub : ∀ e ∈ hung, e ∈ marks) :
    ∃ d, marks.hangers (hung.map (·.1)) = .ok d ∧ ∀ cell, d.get? cell = hung.attachedAt? cell := by
  have hcells : ((hung.map (·.1)).mapM fun p => do return ((← marks.rangeOf p).attach, p)) =
      .ok (hung.map fun e => (e.2.attach, e.1)) := by
    rw [List.mapM_map]
    refine mapM_eq_ok fun e he => ?_
    rw [Function.comp_apply, rangeOf_eq hmarks (hsub e he)]
    rfl
  refine ⟨.ofFirsts (hung.map fun e => (e.2.attach, e.1)), ?_, fun cell => ?_⟩
  · rw [hangers, hcells]
    rfl
  · rw [Dictionary.get?_ofFirsts, lookup_attach]

/-- **A cell below a line** is painted as the one that is asked. -/
theorem paintUnderlineCell_eq {d : Dictionary Nat Placement}
    (hd : ∀ cell, d.get? cell = hung.attachedAt? cell) (cell : Nat) :
    paintUnderlineCell pen marks d cell = .ok (underlineCell pen marks hung cell) := by
  unfold paintUnderlineCell underlineCell
  rw [hd]
  cases hung.attachedAt? cell with
  | some p => rfl
  | none =>
    have hcovers : ((marks.map (·.1)).mapM fun p => do
        return (p, (← marks.rangeOf p).covers cell)) =
        .ok (marks.map fun e => (e.1, e.2.covers cell)) := by
      rw [List.mapM_map]
      refine mapM_eq_ok fun e he => ?_
      rw [Function.comp_apply, rangeOf_eq hmarks he]
      rfl
    have hfilter : ((marks.map fun e => (e.1, e.2.covers cell)).filter (·.2)).map (·.1) =
        (marks.filter (·.2.covers cell)).map (·.1) := by
      rw [List.filter_map, List.map_map]
      rfl
    dsimp only
    rw [hcovers]
    exact (paintCovered_eq pen _).trans (by rw [hfilter]; rfl)

/-- **The row of underlines** is painted without fault. -/
theorem paintUnderline_eq (hne : marks ≠ []) (hsub : ∀ e ∈ marks.withMessages, e ∈ marks)
    (horder : Placement.messageOrder (marks.map (·.1)) = marks.withMessages.map (·.1)) :
    paintUnderline pen marks = .ok (underline pen marks) := by
  obtain ⟨d, hd, hget⟩ := exists_hangers hmarks hsub
  have hwidth : largest (marks.map (·.2.stop)) = .ok marks.width :=
    largest_eq fun hnil => hne (List.map_eq_nil_iff.1 hnil)
  unfold paintUnderline underline
  rw [horder, hd, hwidth]
  exact mapM_eq_ok fun cell _ => paintUnderlineCell_eq pen hmarks hget cell

omit hmarks in
/-- **A cell shows the connector** that hangs there. -/
theorem lastOn?_hangingStrokes (d : Dictionary Nat Placement) (cell : Nat) :
    lastOn? (hangingStrokes pen d) cell = (d.get? cell).map (pen.draw · pen.glyphs.vertical) := by
  unfold hangingStrokes
  cases hcell : d.get? cell with
  | none =>
    refine lastOn?_eq_none fun t ht => ?_
    obtain ⟨⟨c, p⟩, he, rfl⟩ := List.mem_map.1 ht
    rintro rfl
    rw [Dictionary.mem_entries_iff.1 he] at hcell
    cases hcell
  | some p =>
    refine lastOn?_eq_some ⟨_, List.mem_map_of_mem (Dictionary.mem_entries_iff.2 hcell), rfl⟩ ?_
    intro t ht htc
    obtain ⟨⟨c, q⟩, he, rfl⟩ := List.mem_map.1 ht
    obtain rfl : c = cell := htc
    rw [Dictionary.mem_entries_iff.1 he, Option.some.injEq] at hcell
    rw [hcell]

omit hmarks in
/-- Connectors hang at cells of their labels. -/
theorem cell_lt_of_mem_hangingStrokes {d : Dictionary Nat Placement} {column : Nat}
    (hd : ∀ cell, d.get? cell = hung.attachedAt? cell) (hcolumn : ∀ e ∈ hung, e.2.attach < column)
    {t : Stroke} (ht : t ∈ hangingStrokes pen d) : t.cell < column := by
  obtain ⟨⟨cell, p⟩, he, rfl⟩ := List.mem_map.1 ht
  have hget := Dictionary.mem_entries_iff.1 he
  rw [hd] at hget
  obtain ⟨m, hm, -⟩ := Option.map_eq_some_iff.1 hget
  have hattach : m.2.attach = cell := by simpa using List.find?_some hm
  exact hattach ▸ hcolumn m (List.mem_of_find?_eq_some hm)

variable {column : Nat} (hsub : ∀ e ∈ hung, e ∈ marks) (hcolumn : ∀ e ∈ hung, e.2.attach < column)

include hsub hcolumn

/-- **The connectors in the further rows of a message** are painted without fault. -/
theorem paintHanging_eq :
    paintHanging pen marks column (hung.map (·.1)) = .ok (hanging pen column hung) := by
  obtain ⟨d, hd, hget⟩ := exists_hangers hmarks hsub
  unfold paintHanging hanging
  rw [hd]
  refine (paint_eq fun t ht => cell_lt_of_mem_hangingStrokes pen hget hcolumn ht).trans
    (congrArg Except.ok (List.map_congr_left fun cell _ => ?_))
  rw [lastOn?_hangingStrokes, hget]
  unfold hangingCell
  cases hung.attachedAt? cell with
  | none => rfl
  | some p => rfl

/-- **The connectors in the first row of a message** are painted without fault. -/
theorem paintConnectors_eq {e : Placement × CellRange} (he : e ∈ marks)
    (hown : e.2.attach < column) :
    paintConnectors pen marks column (hung.map (·.1)) e.1 =
      .ok (connectors pen column hung e.1 e.2.attach) := by
  obtain ⟨d, hd, hget⟩ := exists_hangers hmarks hsub
  have hkeys : ∀ cell, cell ∈ d.keys ↔ (hung.attachedAt? cell).isSome = true := fun cell => by
    rw [← Dictionary.isSome_get?, hget]
  unfold paintConnectors connectors
  rw [hd, rangeOf_eq hmarks he]
  refine (paint_eq fun t ht => ?_).trans
    (congrArg Except.ok (List.map_congr_left fun cell hcell => ?_))
  · rcases List.mem_append.1 ht with ht | ht
    · exact cell_lt_of_mem_hangingStrokes pen hget hcolumn ht
    · rcases List.mem_cons.1 ht with rfl | ht
      · exact hown
      · exact (Pen.mem_runStrokes.1 ht).1.2
  · have hcell := List.mem_range.1 hcell
    rw [lastOn?_append, lastOn?, lastOn?_hangingStrokes, hget, pen.lastOn?_runStrokes]
    unfold connectorCell
    dsimp only
    by_cases hsame : cell = e.2.attach
    · rw [if_neg (by omega), if_pos hsame.symm, if_pos hsame, hsame]
      simp only [hkeys]
      rfl
    · rw [if_neg (Ne.symm hsame), if_neg hsame, Option.or_none]
      by_cases hafter : e.2.attach < cell
      · have hcontains : d.keys.contains cell = (hung.attachedAt? cell).isSome := by
          rw [List.contains_eq_mem, Bool.eq_iff_iff, decide_eq_true_eq, hkeys]
        rw [if_pos ⟨by omega, hcell, List.not_mem_nil⟩, if_pos hafter, hcontains]
        rfl
      · rw [if_neg (by omega), if_neg hafter, Option.none_or]
        unfold hangingCell
        cases hung.attachedAt? cell with
        | none => rfl
        | some p => rfl

end Found

end Marks

end SourceReport
