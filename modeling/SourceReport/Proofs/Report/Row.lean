import SourceReport.Proofs.Layout.Width
import SourceReport.Report.Row

/-!
# What is written of a row

Blanks at the end of a row are dropped run by run, and neighbours of one style are joined. Neither
changes the text that is left: what is written of a row is the text of its parts without the blanks
at its end (`Row.written_eq`). A row that ends with a visible code point is written as it is.

* `Row.lead` is what stands in front of the cells and the text of a row, its gutter and its margin.
* `Text.Occupies` says in which columns of a row of characters a text stands.
-/

namespace SourceReport

namespace Text

/-! ## Blanks at the end -/

/-- A text is cut at its end only. -/
theorem trimEnd_prefix (t : Text) : t.trimEnd <+: t := by
  induction t with
  | nil => exact List.nil_prefix
  | cons c t ih =>
    rw [trimEnd]
    split
    · split
      · exact List.nil_prefix
      · exact (List.prefix_cons_inj c).2 List.nil_prefix
    · exact (List.prefix_cons_inj c).2 ih

theorem trimEnd_append_of_nil {b : Text} (hb : b.trimEnd = []) (a : Text) :
    (a ++ b).trimEnd = a.trimEnd := by
  induction a with
  | nil => exact hb
  | cons c a ih =>
    rw [List.cons_append, trimEnd, ih]
    rfl

theorem trimEnd_append_of_ne_nil {b : Text} (hb : b.trimEnd ≠ []) (a : Text) :
    (a ++ b).trimEnd = a ++ b.trimEnd := by
  induction a with
  | nil => rfl
  | cons c a ih =>
    have hne : a ++ b.trimEnd ≠ [] := fun h => hb (List.append_eq_nil_iff.1 h).2
    rw [List.cons_append, trimEnd, ih]
    split
    · next h => exact absurd h hne
    · rfl

/-- A text that ends with a visible code point has no blanks to drop. -/
theorem trimEnd_append_singleton {c : CodePoint} (hc : c.isBlank = false) (a : Text) :
    (a ++ [c]).trimEnd = a ++ [c] := by
  have hkept : trimEnd [c] = [c] := by simp [trimEnd, hc]
  rw [trimEnd_append_of_ne_nil (by rw [hkept]; exact List.cons_ne_nil c []), hkept]

/-- Blanks are dropped behind the last visible code point only. -/
theorem trimEnd_visible_append {c : CodePoint} (hc : c.isBlank = false) (a b : Text) :
    (a ++ [c] ++ b).trimEnd = a ++ [c] ++ b.trimEnd := by
  by_cases hb : b.trimEnd = []
  · rw [trimEnd_append_of_nil hb, trimEnd_append_singleton hc, hb, List.append_nil]
  · rw [trimEnd_append_of_ne_nil hb]

/-- What is left of a text ends with a visible code point. -/
theorem exists_trimEnd_eq_append (t : Text) :
    t.trimEnd = [] ∨ ∃ a c, t.trimEnd = a ++ [c] ∧ c.isBlank = false := by
  induction t with
  | nil => exact Or.inl rfl
  | cons c t ih =>
    rw [trimEnd]
    rcases ih with h | ⟨a, d, h, hd⟩
    · rw [h]
      cases hc : c.isBlank with
      | true => exact Or.inl (by simp)
      | false => exact Or.inr ⟨[], c, by simp, hc⟩
    · rw [h]
      refine Or.inr ⟨c :: a, d, ?_, hd⟩
      cases a <;> rfl

/-- The printed form of what is left of a text ends with a visible code point as well. -/
theorem exists_shownFrom_eq_append {t : Text} (h : t.trimEnd ≠ []) (tabWidth : Int) (column : Nat) :
    ∃ a c, shownFrom tabWidth column t.trimEnd = a ++ [c] ∧ c.isBlank = false := by
  rcases t.exists_trimEnd_eq_append with hnil | ⟨a, c, hac, hc⟩
  · exact absurd hnil h
  · obtain ⟨d, hd, hblank⟩ := CodePoint.exists_shown_eq_singleton hc tabWidth
      (columnAfter tabWidth column a)
    refine ⟨shownFrom tabWidth column a, d, ?_, hblank⟩
    rw [hac, shownFrom_append, shownFrom, shownFrom, hd, List.append_nil]

/-! ## Columns -/

/-- A text stands in the columns from `start` to before `stop` of a row of characters, wherever the
terminal has its tab stops. -/
def Occupies (row t : Text) (start stop : Nat) : Prop :=
  ∃ before after, row = before ++ t ++ after ∧ (∀ tabWidth, before.cells tabWidth = start) ∧
    ∀ tabWidth, (before ++ t).cells tabWidth = stop

theorem occupies_of_hasWidth {row before t after : Text} {m n : Nat}
    (h : row = before ++ t ++ after) (hbefore : before.HasWidth m) (ht : t.HasWidth n) :
    row.Occupies t m (m + n) :=
  ⟨before, after, h, hbefore.cells_eq, (hbefore.append ht).cells_eq⟩

end Text

/-! ## Runs -/

theorem runsText_append (a b : List Run) : runsText (a ++ b) = runsText a ++ runsText b :=
  List.flatMap_append

theorem runsText_cons (r : Run) (rs : List Run) : runsText (r :: rs) = r.text ++ runsText rs := rfl

theorem runsText_map_run (cells : List Cell) :
    runsText (cells.map Cell.run) = cells.map (·.glyph) := by
  induction cells with
  | nil => rfl
  | cons c cells ih => rw [List.map_cons, runsText_cons, ih]; rfl

/-- Joining runs keeps their text. -/
theorem runsText_joinRuns (rs : List Run) : runsText (joinRuns rs) = runsText rs := by
  induction rs with
  | nil => rfl
  | cons r rs ih =>
    rw [runsText_cons, ← ih, joinRuns]
    split
    · next h => rw [h]; rfl
    · next next more h =>
      rw [h]
      split
      · simp only [runsText_cons, List.append_assoc]
      · rfl

/-- No run is kept for blanks alone. -/
theorem runsText_trimRuns_ne_nil {rs : List Run} (h : trimRuns rs ≠ []) :
    runsText (trimRuns rs) ≠ [] := by
  induction rs with
  | nil => exact absurd rfl h
  | cons r rs ih =>
    rw [trimRuns] at h ⊢
    split
    · next hrest =>
      rw [hrest] at h
      split
      · next hr => rw [hr] at h; exact absurd rfl h
      · next hr => simpa [runsText] using hr
    · next hne =>
      rw [runsText_cons]
      exact fun hnil => ih (fun hrest => hne hrest) (List.append_eq_nil_iff.1 hnil).2

/-- Dropping blanks run by run drops those at the end of the text. -/
theorem runsText_trimRuns (rs : List Run) : runsText (trimRuns rs) = (runsText rs).trimEnd := by
  induction rs with
  | nil => rfl
  | cons r rs ih =>
    rw [runsText_cons, trimRuns]
    split
    · next h =>
      rw [h] at ih
      rw [Text.trimEnd_append_of_nil ih.symm]
      split
      · next hr => rw [hr]; rfl
      · next hr => exact List.append_nil _
    · next hne =>
      have hkept : (runsText rs).trimEnd ≠ [] := by
        rw [← ih]
        exact runsText_trimRuns_ne_nil fun hrest => hne hrest
      rw [runsText_cons, ih, Text.trimEnd_append_of_ne_nil hkept]

namespace Row

/-- What stands in front of the cells and the text of a row. -/
def lead (r : Row) : Text := runsText r.gutter ++ r.margin.map (·.glyph)

/-- The characters written of a row. -/
def written (r : Row) : Text := runsText r.printed

/-- **What is written of a row** is the text of its parts without the blanks at its end. -/
theorem written_eq (r : Row) :
    r.written = (r.lead ++ r.cells.map (·.glyph) ++ runsText r.text).trimEnd := by
  rw [written, printed, runsText_joinRuns, runsText_trimRuns, runs, runsText_append,
    runsText_append, runsText_append, runsText_map_run, runsText_map_run, lead]

end Row

end SourceReport
