import Mathlib.Data.List.Basic
import SourceReport.Proofs.Report.Messages

/-!
# Rows of a body

The body of a snippet consists of the rows of the entries of its window, with an empty row above and
below. A source line is there if the window has it, and the message of a label if the window has the
line in which the label ends.

* `RowKind.isBody` tells the rows of entries from the empty ones.

Results:
* `Snippet.IsLaidOut.kind_of_mem_entryRows`: what kinds of rows belong to an entry.
* `Snippet.IsLaidOut.exists_source_iff`, `exists_message_iff`: which rows are there.
* `Snippet.exists_entry_of_split`: every row belongs to an entry.
-/

namespace SourceReport

/-- Whether a row shows something of a source, its labels or their messages. -/
def RowKind.isBody : RowKind → Bool
  | .source _ | .skipped .. | .underline _ | .message .. => true
  | _ => false

/-- The empty rows at the top and at the bottom of a snippet. -/
def Pen.borders (pen : Pen) : List Row := if pen.settings.compact then [] else [pen.borderRow]

theorem Pen.kind_of_mem_borders {pen : Pen} {r : Row} (h : r ∈ pen.borders) : r.kind = .border := by
  unfold borders at h
  split at h
  · cases h
  · rw [List.mem_singleton.1 h]
    rfl

/-! ## Where a row stands -/

/-- An element of two lists one after the other stands in the first or in the second one. -/
theorem exists_of_append_eq {α : Type} {xs ys above below : List α} {y : α}
    (h : xs ++ ys = above ++ y :: below) :
    (∃ back, xs = above ++ y :: back ∧ below = back ++ ys) ∨
      ∃ front, ys = front ++ y :: below ∧ above = xs ++ front := by
  rcases List.append_eq_append_iff.1 h with ⟨front, rfl, hys⟩ | ⟨back, rfl, hback⟩
  · exact Or.inr ⟨front, hys, rfl⟩
  · cases back with
    | nil => exact Or.inr ⟨[], hback.symm, by simp⟩
    | cons y' back =>
      obtain ⟨rfl, rfl⟩ := List.cons.inj hback
      exact Or.inl ⟨back, rfl, rfl⟩

/-- An element of the lists that elements of a list stand for comes from one of these. -/
theorem exists_of_flatMap_eq {α β : Type} {f : α → List β} {xs : List α} {above below : List β}
    {y : β} (h : xs.flatMap f = above ++ y :: below) :
    ∃ before x after front back, xs = before ++ x :: after ∧ f x = front ++ y :: back ∧
      above = before.flatMap f ++ front ∧ below = back ++ after.flatMap f := by
  induction xs generalizing above with
  | nil => simp at h
  | cons x xs ih =>
    rcases exists_of_append_eq h with ⟨back, hx, rfl⟩ | ⟨rest, hrest, rfl⟩
    · exact ⟨[], x, xs, above, back, rfl, hx, rfl, rfl⟩
    · obtain ⟨before, x', after, front, back, rfl, hx', rfl, rfl⟩ := ih hrest
      exact ⟨x :: before, x', after, front, back, rfl, hx', by simp, rfl⟩

namespace Snippet

variable {pen : Pen} {s : Snippet} {source : Source} {w : Window} {line : Nat}

/-- Without a source there is nothing to show. -/
theorem kind_of_mem_bodyRows_of_none (h : s.source = none) {r : Row} (hr : r ∈ bodyRows pen s) :
    r.kind = .border ∨ r.kind = .unavailable := by
  unfold bodyRows at hr
  rw [h] at hr
  rcases List.mem_append.1 hr with hr | hr
  · exact Or.inl (Pen.kind_of_mem_borders hr)
  · rw [List.mem_singleton.1 hr]
    exact Or.inr rfl

/-- **The body of a snippet with labels** are the rows of the entries. -/
theorem bodyRows_eq (h : s.source = some source) (hne : s.labels ≠ []) :
    bodyRows pen s =
      pen.borders ++ s.window.flatMap (entryRows pen s source) ++ pen.borders := by
  unfold bodyRows
  rw [h]
  dsimp only
  rw [List.isEmpty_eq_false_iff.2 hne]
  rfl

/-- A body that shows one line. -/
theorem bodyRows_eq_of_line (h : s.source = some source) (hne : s.labels ≠ []) {line : Nat}
    (hw : s.window = [.line line]) :
    bodyRows pen s = pen.borders ++ lineRows pen s source line ++ pen.borders := by
  rw [bodyRows_eq h hne, hw, List.flatMap_singleton]
  rfl

/-- The rows of an entry stand in one place of the body. -/
theorem bodyRows_eq_of_window (h : s.source = some source) (hne : s.labels ≠ [])
    {before after : Window} {e : WindowEntry} (hw : s.window = before ++ e :: after) :
    bodyRows pen s = pen.borders ++ before.flatMap (entryRows pen s source) ++
      entryRows pen s source e ++ (after.flatMap (entryRows pen s source) ++ pen.borders) := by
  rw [bodyRows_eq h hne, hw, List.flatMap_append, List.flatMap_cons]
  simp only [List.append_assoc]

/-- So does each of its rows. -/
theorem bodyRows_eq_of_entry (h : s.source = some source) {before after : Window} {e : WindowEntry}
    (hw : s.window = before ++ e :: after) {front back : List Row} {row : Row}
    (he : entryRows pen s source e = front ++ row :: back) (hne : s.labels ≠ []) :
    bodyRows pen s = pen.borders ++ (before.flatMap (entryRows pen s source) ++ front) ++
      row :: (back ++ after.flatMap (entryRows pen s source) ++ pen.borders) := by
  rw [bodyRows_eq_of_window h hne hw, he]
  simp only [List.append_assoc, List.cons_append]

/-- **Every row of a body** other than the empty ones belongs to an entry. -/
theorem exists_entry_of_split (h : s.source = some source) {above below : List Row} {row : Row}
    (hrows : bodyRows pen s = above ++ row :: below) (hbody : row.kind.isBody = true) :
    ∃ before e after front back, s.window = before ++ e :: after ∧
      entryRows pen s source e = front ++ row :: back ∧
      above = pen.borders ++ (before.flatMap (entryRows pen s source) ++ front) ∧
      below = back ++ after.flatMap (entryRows pen s source) ++ pen.borders := by
  have hborder : row ∉ pen.borders := by
    intro hmem
    rw [Pen.kind_of_mem_borders hmem] at hbody
    cases hbody
  by_cases hne : s.labels = []
  · simp [bodyRows, h, hne] at hrows
  · rw [bodyRows_eq h hne, List.append_assoc] at hrows
    rcases exists_of_append_eq hrows with ⟨back, hborders, -⟩ | ⟨rest, hrest, rfl⟩
    · exact absurd (by rw [hborders]; simp) hborder
    · rcases exists_of_append_eq hrest with ⟨back, hentries, rfl⟩ | ⟨front, hborders, -⟩
      · obtain ⟨before, e, after, front, back, hw, he, rfl, rfl⟩ := exists_of_flatMap_eq hentries
        exact ⟨before, e, after, front, back, hw, he, rfl, rfl⟩
      · exact absurd (by rw [hborders]; simp) hborder

/-! ## Which rows are there -/

namespace IsLaidOut

variable (h : s.IsLaidOut)

include h

/-- What kinds of rows belong to an entry. -/
theorem kind_of_mem_entryRows {e : WindowEntry} {r : Row} (hr : r ∈ entryRows pen s source e) :
    (∃ first count, e = .skipped first count ∧ r.kind = .skipped first count) ∨
      ∃ line, e = .line line ∧ (r.kind = .source line ∨ r.kind = .underline line ∨
        ∃ p ∈ s.speakers line, ∃ n, r.kind = .message p.index n) := by
  cases e with
  | line line => exact Or.inr ⟨line, rfl, h.kind_of_mem_lineRows pen hr⟩
  | skipped first count =>
    obtain rfl := List.mem_singleton.1 hr
    exact Or.inl ⟨first, count, rfl, rfl⟩

/-- A body shows nothing but its entries, between empty rows. -/
theorem kind_of_mem_bodyRows (hsource : s.source = some source) {r : Row}
    (hr : r ∈ bodyRows pen s) : r.kind = .border ∨ r.kind.isBody = true := by
  by_cases hne : s.labels = []
  · simp [bodyRows, hsource, hne] at hr
  · rw [bodyRows_eq hsource hne, List.mem_append, List.mem_append] at hr
    rcases hr with (hr | hr) | hr
    · exact Or.inl (Pen.kind_of_mem_borders hr)
    · obtain ⟨e, -, hr⟩ := List.mem_flatMap.1 hr
      right
      rcases h.kind_of_mem_entryRows hr with ⟨_, _, -, hk⟩ | ⟨_, -, hk | hk | ⟨_, -, _, hk⟩⟩ <;>
        rw [hk] <;> rfl
    · exact Or.inl (Pen.kind_of_mem_borders hr)

theorem eq_of_index_eq {p q : Placement} (hp : p ∈ s.labels) (hq : q ∈ s.labels)
    (hindex : p.index = q.index) : p = q :=
  Classical.byContradiction fun hne => h.index_ne hp hq hne hindex

/-- **Which source lines are there.** -/
theorem exists_source_iff :
    (∃ r ∈ w.flatMap (entryRows pen s source), r.kind = .source line) ↔ .line line ∈ w := by
  constructor
  · rintro ⟨r, hr, hkind⟩
    obtain ⟨e, he, hr⟩ := List.mem_flatMap.1 hr
    rcases h.kind_of_mem_entryRows hr with ⟨_, _, -, hk⟩ | ⟨l, rfl, hk | hk | ⟨_, _, _, hk⟩⟩ <;>
      rw [hkind] at hk <;> cases hk
    exact he
  · intro hline
    obtain ⟨display, underlines, messages, heq, -, -⟩ := h.exists_lineRows_eq pen source line
    refine ⟨sourceRow pen s line display, List.mem_flatMap.2 ⟨.line line, hline, ?_⟩, rfl⟩
    rw [entryRows, heq]
    exact List.mem_cons_self

/-- A row of a message stands below the line in which its label ends. -/
theorem exists_of_message_mem {index n : Nat} {r : Row}
    (hr : r ∈ w.flatMap (entryRows pen s source)) (hkind : r.kind = .message index n) :
    ∃ p ∈ s.labels, p.index = index ∧ p.hasMessage = true ∧ .line p.lastLine ∈ w := by
  obtain ⟨e, he, hr⟩ := List.mem_flatMap.1 hr
  rcases h.kind_of_mem_entryRows hr with ⟨_, _, -, hk⟩ | ⟨l, rfl, hk | hk | ⟨p, hp, _, hk⟩⟩ <;>
    rw [hkind] at hk <;> cases hk
  obtain ⟨hmem, hmessage, rfl⟩ := h.mem_speakers.1 hp
  exact ⟨p, hmem, rfl, hmessage, he⟩

/-- **Which messages are there.** -/
theorem exists_message_iff {p : Placement} (hp : p ∈ s.labels) (hmessage : p.hasMessage = true) :
    (∃ r ∈ w.flatMap (entryRows pen s source), r.kind = .message p.index 0) ↔
      .line p.lastLine ∈ w := by
  constructor
  · rintro ⟨r, hr, hkind⟩
    obtain ⟨q, hq, hindex, -, hline⟩ := h.exists_of_message_mem hr hkind
    rwa [h.eq_of_index_eq hq hp hindex] at hline
  · intro hline
    obtain ⟨top, between, block, below, heq, -, hblock, -⟩ :=
      h.exists_block_of_mem_speakers pen source (h.mem_speakers.2 ⟨hp, hmessage, rfl⟩)
    obtain ⟨t, more, hhead⟩ := p.exists_block_eq_cons
    rw [hhead] at hblock
    obtain ⟨r, rest, rfl, hr, -⟩ := List.map_eq_cons_iff.1 hblock
    refine ⟨r, List.mem_flatMap.2 ⟨.line p.lastLine, hline, ?_⟩, congrArg Prod.fst hr⟩
    rw [entryRows, heq]
    simp

end IsLaidOut

end Snippet

end SourceReport
