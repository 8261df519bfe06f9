import SourceReport.Proofs.Layout.Gaps

/-!
# The extent of windows

How much of a source is shown depends on the labels and the settings, not on the length of the
source. A label of one line shows one line, and a label of several lines no more lines around each
of its ends than the context has. Between two of these lines a window has at most one entry, or as
many as the threshold lets it fill.

* `Source.IsBrief` bounds the lines to be shown and the entries of a window.

Results:
* `Placement.card_reveal_le`, `card_foldl_reveal_le`: one more label, then any number of labels.
* `Window.length_between_le`, `length_onward_le`: one more gap, then any number of gaps.
* `Source.isBrief_ofLines`: the bounds hold for labels in a source.
-/

namespace SourceReport

/-! ## The lines that labels show -/

section Visible

variable (lineCount : Nat) (before after : Int) (shown : Finset Nat)

/-- An end of a label adds itself and the lines around it. -/
theorem Placement.card_revealAround_le (anchor : Nat) :
    (revealAround lineCount before after shown anchor).card ≤
      shown.card + (before.toNat + after.toNat + 1) := by
  -- The end itself is one of the lines around it, so it is not counted twice.
  have hsubset : revealAround lineCount before after shown anchor ⊆
      shown ∪ Finset.Icc (anchor - before.toNat) (anchor + after.toNat) := by
    intro line hline
    rw [mem_revealAround] at hline
    rw [Finset.mem_union, Finset.mem_Icc]
    refine hline.imp_right ?_
    omega
  have haround : (Finset.Icc (anchor - before.toNat) (anchor + after.toNat)).card ≤
      before.toNat + after.toNat + 1 := by
    rw [Nat.card_Icc]
    omega
  calc (revealAround lineCount before after shown anchor).card
      ≤ (shown ∪ Finset.Icc (anchor - before.toNat) (anchor + after.toNat)).card :=
        Finset.card_le_card hsubset
    _ ≤ shown.card + (Finset.Icc (anchor - before.toNat) (anchor + after.toNat)).card :=
        Finset.card_union_le _ _
    _ ≤ shown.card + (before.toNat + after.toNat + 1) := Nat.add_le_add_left haround _

/-- **One more label** adds one line if it is a label of one line, and otherwise the lines around
its two ends. -/
theorem Placement.card_reveal_le (p : Placement) :
    (reveal lineCount before after shown p).card ≤
      shown.card + if p.isMultiline then 2 * (before.toNat + after.toNat + 1) else 1 := by
  unfold reveal
  split
  · have hfirst := card_revealAround_le lineCount before after shown p.firstLine
    have hlast := card_revealAround_le lineCount before after
      (revealAround lineCount before after shown p.firstLine) p.lastLine
    rw [List.foldl_cons, List.foldl_cons, List.foldl_nil]
    omega
  · exact Finset.card_insert_le _ _

theorem card_foldl_reveal_le (ps : List Placement) :
    (ps.foldl (Placement.reveal lineCount before after) shown).card ≤
      shown.card + (ps.countP (!·.isMultiline) +
        2 * ps.countP (·.isMultiline) * (before.toNat + after.toNat + 1)) := by
  induction ps generalizing shown with
  | nil => simp
  | cons p ps ih =>
    have hrest := ih (Placement.reveal lineCount before after shown p)
    have hlabel := Placement.card_reveal_le lineCount before after shown p
    rw [List.foldl_cons, List.countP_cons, List.countP_cons]
    cases hmulti : p.isMultiline with
    | true =>
      simp only [hmulti, if_true, Bool.not_true, Bool.false_eq_true, if_false] at hlabel ⊢
      rw [Nat.add_zero, Nat.mul_add 2, Nat.mul_one, Nat.add_mul]
      omega
    | false =>
      simp only [hmulti, if_true, Bool.not_false, Bool.false_eq_true, if_false, Nat.add_zero]
        at hlabel ⊢
      omega

/-- **The lines that labels show** are no more than their number and the context allow. -/
theorem length_visibleLines_le {ps : List Placement} {lineCount : Nat} (before after : Int)
    (hps : ∀ p ∈ ps, p.firstLine < lineCount ∧ p.lastLine < lineCount) :
    (visibleLines ps lineCount before after).length ≤ ps.countP (!·.isMultiline) +
      2 * ps.countP (·.isMultiline) * (before.toNat + after.toNat + 1) := by
  rw [visibleLines_eq_sort hps, Finset.length_sort, gatherLines]
  have hcard := card_foldl_reveal_le lineCount before after ∅ ps
  rwa [Finset.card_empty, Nat.zero_add] at hcard

end Visible

/-! ## Windows -/

namespace Window

variable (threshold : Int)

/-- A gap has one entry if it is skipped, and otherwise no more than the threshold lets it fill. -/
theorem length_between_le (previous next : Nat) :
    (between threshold previous next).length ≤ max threshold.toNat 1 := by
  unfold between
  dsimp only
  split
  · exact Nat.zero_le _
  · split
    · next hfits =>
      rw [List.length_map, List.length_range]
      exact Nat.le_trans hfits (Nat.le_max_left _ _)
    · exact Nat.le_max_right _ _

/-- Each line comes with one gap, the one above it. -/
theorem length_onward_le (previous : Nat) (lines : List Nat) :
    (onward threshold previous lines).length ≤
      lines.length + lines.length * max threshold.toNat 1 := by
  induction lines generalizing previous with
  | nil => exact Nat.zero_le _
  | cons line rest ih =>
    have hgap := length_between_le threshold previous line
    have hrest := ih line
    rw [onward, List.length_append, List.length_cons, List.length_cons, Nat.add_one_mul]
    omega

/-- **The window of some lines** has an entry for each of them and the entries of the gaps between
them. -/
theorem length_ofLines_le (lines : List Nat) :
    (ofLines threshold lines).length ≤
      lines.length + (lines.length - 1) * max threshold.toNat 1 := by
  cases lines with
  | nil => exact Nat.zero_le _
  | cons line rest =>
    have hrest := length_onward_le threshold line rest
    rw [ofLines, List.length_cons, List.length_cons, Nat.add_sub_cancel]
    omega

/-- A gap of three lines is filled, and one of four lines takes one entry. -/
example : (ofLines 3 [0, 4, 9]).length = 3 + 3 + 1 := by decide

end Window

/-! ## Labels in a source -/

/-- What is shown of a source is bounded by the labels in it and by the settings. -/
structure Source.IsBrief (before after threshold : Int) (ps : List Placement) (lines : List Nat)
    (w : Window) : Prop where
  /-- Each label of one line shows one line, and each end of another one a line with its context. -/
  lines_le : lines.length ≤ ps.countP (!·.isMultiline) +
    2 * ps.countP (·.isMultiline) * (before.toNat + after.toNat + 1)
  /-- Each line has an entry, and each gap between two of them no more than it may be filled with,
  or one. -/
  entries_le : 0 < lines.length →
    w.length ≤ lines.length + (lines.length - 1) * max threshold.toNat 1
  empty : lines.length = 0 → w = []

/-- **What labels show of their source is brief.** The lines to be shown are bounded by the number
of labels and the context, and the entries of the window by these lines and the threshold. The
length of the source does not matter. -/
theorem Source.isBrief_ofLines (s : Source) (labels : List (Label × Nat))
    (before after threshold : Int) :
    IsBrief before after threshold (s.placements labels)
      (visibleLines (s.placements labels) s.lineCount before after)
      (.ofLines threshold (visibleLines (s.placements labels) s.lineCount before after)) where
  lines_le := length_visibleLines_le before after fun _ => lines_lt_of_mem_placements
  entries_le _ := Window.length_ofLines_le threshold _
  empty hnone := by
    rw [List.length_eq_zero_iff.1 hnone]
    rfl

end SourceReport
